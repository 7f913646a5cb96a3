import Libiscsi.LoginBounds

/-!
# CHAP responses

`compute_chap_r` (`lib/login.c`) and its four variants, which go through the challenge two digits at
a time and look at the first of them only to see the end. The challenge is in a memory that goes on
after its NUL, so that what is read of it can be told. With an even number of digits each variant
ends at the NUL; with an odd number none does (`chap_bounds_iff`).
-/

namespace Libiscsi

open CString

/-! ## The digests -/

/-- The hash functions, each from all the bytes that it gets to the digest. -/
structure Hashes where
  md5 : List UInt8 → List UInt8
  sha1 : List UInt8 → List UInt8
  sha256 : List UInt8 → List UInt8
  sha3256 : List UInt8 → List UInt8

/-- What a variant reads of the challenge, gives to its hash function, and returns. -/
structure ChapRun where
  reads : List Nat
  input : List UInt8
  digest : List UInt8

section
variable (mem : Nat → UInt8)

/-- The loop over the challenge, from `strp` on: what it reads, and the bytes for the hash. The
number bounds the turns; `none` says that they do not suffice. -/
def chapLoop : Nat → Nat → Option (List Nat × List UInt8)
  | 0, _ => none
  | fuel + 1, strp =>
    if mem strp = 0 then some ([strp], [])
    else
      match chapLoop fuel (strp + 2) with
      | none => none
      | some (reads, bytes) =>
        some (strp :: strp :: (strp + 1) :: reads,
          hexByte (mem strp) (mem (strp + 1)) :: bytes)

/-- A variant of `compute_chap_r` with its hash function: the identifier, the password, the
challenge. -/
def computeChapRWith (hash : List UInt8 → List UInt8) (fuel : Nat) (chapI : Int) (passwd : CStr) :
    Option ChapRun :=
  match chapLoop mem fuel 0 with
  | none => none
  | some (reads, bytes) =>
    let input := UInt8.ofInt chapI :: passwd ++ bytes
    some { reads, input, digest := hash input }

variable (hashes : Hashes)

/-- `compute_chap_r_md5`. -/
def computeChapRMd5 : Nat → Int → CStr → Option ChapRun := computeChapRWith mem hashes.md5

/-- `compute_chap_r_sha1`. -/
def computeChapRSha1 : Nat → Int → CStr → Option ChapRun := computeChapRWith mem hashes.sha1

/-- `compute_chap_r_sha256`. -/
def computeChapRSha256 : Nat → Int → CStr → Option ChapRun := computeChapRWith mem hashes.sha256

/-- `compute_chap_r_sha3_256`. -/
def computeChapRSha3256 : Nat → Int → CStr → Option ChapRun :=
  computeChapRWith mem hashes.sha3256

/-- `compute_chap_r`. -/
def computeChapR (auth : ChapAuth) : Nat → Int → CStr → Option ChapRun :=
  match auth with
  | .md5 => computeChapRMd5 mem hashes
  | .sha1 => computeChapRSha1 mem hashes
  | .sha256 => computeChapRSha256 mem hashes
  | .sha3256 => computeChapRSha3256 mem hashes

end

/-! ## Texts -/

/-- The bytes that a text of hexadecimal digits encodes. -/
def hexBytes : CStr → List UInt8
  | hi :: lo :: text => hexByte hi lo :: hexBytes text
  | _ => []

/-- A text with its NUL, in memory. -/
def HoldsText (mem : Nat → UInt8) : Nat → CStr → Prop
  | p, [] => mem p = 0
  | p, b :: text => b ≠ 0 ∧ mem p = b ∧ HoldsText mem (p + 1) text

/-- A run of `compute_chap_r` is right: it ends, reads the challenge up to its NUL, and the hash
gets the identifier, the password and the bytes of the challenge. -/
def ChapRight (mem : Nat → UInt8) (hashes : Hashes) (auth : ChapAuth) (chapI : Int)
    (passwd text : CStr) : Prop :=
  ∃ fuel run, computeChapR mem hashes auth fuel chapI passwd = some run ∧
    (∀ i ∈ run.reads, i ≤ text.length) ∧
      run.input = UInt8.ofInt chapI :: passwd ++ hexBytes text

/-! ## The loop -/

section
variable {mem : Nat → UInt8}

/-- The loop over an even number of digits ends at the NUL. -/
theorem chapLoop_even : ∀ (text : CStr) {p : Nat}, HoldsText mem p text → Even text.length →
    ∃ fuel reads, chapLoop mem fuel p = some (reads, hexBytes text) ∧
      ∀ i ∈ reads, i ≤ p + text.length
  | [], p, hmem, _ => by
    refine ⟨1, [p], ?_, List.forall_mem_singleton.2 (Nat.le_add_right _ _)⟩
    rw [chapLoop, if_pos (show mem p = 0 from hmem)]
    rfl
  | [_], _, _, heven => absurd heven Nat.not_even_one
  | hi :: lo :: text, p, ⟨hhi, hp, _, hp', hmem⟩, heven => by
    have heven' : Even text.length := by
      rw [List.length_cons, List.length_cons] at heven
      grind
    obtain ⟨fuel, reads, hloop, hreads⟩ := chapLoop_even text hmem heven'
    refine ⟨fuel + 1, p :: p :: (p + 1) :: reads, ?_, ?_⟩
    · rw [chapLoop, if_neg (by rw [hp]; exact hhi), hloop, hp, hp']
      rfl
    · intro i hi
      simp only [List.mem_cons, List.length_cons] at hi ⊢
      rcases hi with rfl | rfl | rfl | hi
      · omega
      · omega
      · omega
      · have := hreads i hi
        omega

/-- The loop over an odd number of digits steps over the NUL. -/
theorem chapLoop_odd : ∀ (text : CStr) {p fuel : Nat} {reads : List Nat} {bytes : List UInt8},
    HoldsText mem p text → ¬Even text.length → chapLoop mem fuel p = some (reads, bytes) →
      p + text.length + 1 ∈ reads
  | [], _, _, _, _, _, hodd, _ => absurd Even.zero hodd
  | _, _, 0, _, _, _, _, hloop => by cases hloop
  | [b], p, fuel + 1, reads, bytes, ⟨hb, hp, _⟩, _, hloop => by
    rw [chapLoop, if_neg (by rw [hp]; exact hb)] at hloop
    split at hloop
    · cases hloop
    · rename_i reads' bytes' hrest
      obtain ⟨rfl, -⟩ := Prod.mk.inj (Option.some.inj hloop)
      -- the next turn begins behind the NUL
      have hfirst : p + 2 ∈ reads' := by
        cases fuel with
        | zero => cases hrest
        | succ fuel =>
          rw [chapLoop] at hrest
          split at hrest
          · obtain ⟨rfl, -⟩ := Prod.mk.inj (Option.some.inj hrest)
            exact List.mem_singleton.2 rfl
          · split at hrest
            · cases hrest
            · obtain ⟨rfl, -⟩ := Prod.mk.inj (Option.some.inj hrest)
              exact List.mem_cons_self
      exact List.mem_cons_of_mem _ (List.mem_cons_of_mem _ (List.mem_cons_of_mem _ hfirst))
  | hi :: lo :: text, p, fuel + 1, reads, bytes, ⟨hhi, hp, _, _, hmem⟩, hodd, hloop => by
    rw [chapLoop, if_neg (by rw [hp]; exact hhi)] at hloop
    split at hloop
    · cases hloop
    · rename_i reads' bytes' hrest
      obtain ⟨rfl, -⟩ := Prod.mk.inj (Option.some.inj hloop)
      have hodd' : ¬Even text.length := by
        intro heven
        refine hodd ?_
        rw [List.length_cons, List.length_cons]
        exact (heven.add even_two :)
      have hread := chapLoop_odd text hmem hodd' hrest
      rw [show p + (hi :: lo :: text).length + 1 = p + 2 + text.length + 1 by
        simp only [List.length_cons]; omega]
      exact List.mem_cons_of_mem _ (List.mem_cons_of_mem _ (List.mem_cons_of_mem _ hread))

/-- All variants do the same with the challenge. -/
theorem computeChapR_eq (mem : Nat → UInt8) (hashes : Hashes) (auth : ChapAuth) : ∃ hash,
    computeChapR mem hashes auth = computeChapRWith mem hash := by
  cases auth with
  | md5 => exact ⟨hashes.md5, rfl⟩
  | sha1 => exact ⟨hashes.sha1, rfl⟩
  | sha256 => exact ⟨hashes.sha256, rfl⟩
  | sha3256 => exact ⟨hashes.sha3256, rfl⟩

/-- A response is computed right if and only if the challenge has an even number of digits. -/
theorem chapRight_iff {hashes : Hashes} {auth : ChapAuth} {chapI : Int} {passwd text : CStr}
    (hmem : HoldsText mem 0 text) :
    ChapRight mem hashes auth chapI passwd text ↔ Even text.length := by
  unfold ChapRight
  obtain ⟨hash, hrun⟩ := computeChapR_eq mem hashes auth
  rw [hrun]
  unfold computeChapRWith
  constructor
  · rintro ⟨fuel, run, hsome, hreads, -⟩
    by_contra hodd
    split at hsome
    · cases hsome
    · rename_i hloop
      obtain rfl := Option.some.inj hsome
      have hlast := hreads _ (chapLoop_odd text hmem hodd hloop)
      omega
  · intro heven
    obtain ⟨fuel, reads, hloop, hreads⟩ := chapLoop_even text hmem heven
    refine ⟨fuel, _, by rw [hloop], fun i hi => ?_, rfl⟩
    have := hreads i hi
    omega

end

/-- The challenge for the target, which the code makes itself, has an even number of digits. -/
theorem even_length_toHex (bytes : List UInt8) : Even (toHex bytes).length := by
  have hlen : (toHex bytes).length = 2 * bytes.length := by
    unfold toHex
    induction bytes with
    | nil => rfl
    | cons b bytes ih =>
      rw [List.flatMap_cons, List.length_append, ih, List.length_cons]
      simp only [List.length_cons, List.length_nil]
      omega
  rw [hlen]
  exact even_two_mul _

/-- **A login reply and the response to its challenge stay in bounds, with the right bytes for each
hash, if and only if the challenge that the reply leaves has an even number of digits.** -/
theorem chap_bounds_iff {mem : Nat → UInt8} {hashes : Hashes} {c : Context} {q : InPdu}
    (hmem : HoldsText mem 0 (receiveLogin c q).1.chapC) :
    ((∃ r, checkedLogin ((iscsiProcessPduSerials c q).takeStatsn q) q = .ok r) ∧
      ∀ auth chapI passwd,
        ChapRight mem hashes auth chapI passwd (receiveLogin c q).1.chapC) ↔
      Even (receiveLogin c q).1.chapC.length := by
  constructor
  · rintro ⟨-, hright⟩
    exact (chapRight_iff hmem).1 (hright .md5 0 [])
  · intro heven
    exact ⟨⟨_, checkedLogin_eq ..⟩, fun _ _ _ => (chapRight_iff hmem).2 heven⟩

/-! ## An odd challenge -/

/-- A reply with a challenge. -/
def challengeReply (text : String) : InPdu := loginResponse 0 0 ["CHAP_C=0x" ++ text]

/-- Memory with a text at its beginning. -/
def textMemory (text : CStr) (i : Nat) : UInt8 := text.getD i 0

/-- No hash function. -/
def noHashes : Hashes := ⟨id, id, id, id⟩

/-- A challenge of four digits. -/
theorem chap_bounds_four :
    (∃ r, checkedLogin ((iscsiProcessPduSerials {} (challengeReply "abcd")).takeStatsn
      (challengeReply "abcd")) (challengeReply "abcd") = .ok r) ∧
      ∀ auth chapI passwd, ChapRight (textMemory (ofString "abcd")) noHashes auth chapI passwd
        (receiveLogin {} (challengeReply "abcd")).1.chapC := by
  have htext : (receiveLogin {} (challengeReply "abcd")).1.chapC = ofString "abcd" := by
    decide +kernel
  refine (chap_bounds_iff ?_).2 ?_
  · rw [htext]
    exact ⟨by decide, by decide, by decide, by decide, by decide, by decide, by decide, by decide,
      rfl⟩
  · rw [htext]
    decide +kernel

/-- A challenge of three digits. -/
theorem chap_bounds_three : ¬∀ (mem : Nat → UInt8) (hashes : Hashes) (c : Context) (q : InPdu),
    HoldsText mem 0 (receiveLogin c q).1.chapC → ∀ auth chapI passwd,
      ChapRight mem hashes auth chapI passwd (receiveLogin c q).1.chapC := by
  intro h
  have htext : (receiveLogin {} (challengeReply "abc")).1.chapC = ofString "abc" := by
    decide +kernel
  have hmem : HoldsText (textMemory (ofString "abc")) 0 (ofString "abc") :=
    ⟨by decide, by decide, by decide, by decide, by decide, by decide, rfl⟩
  have hright := h (textMemory (ofString "abc")) noHashes {} (challengeReply "abc")
  rw [htext] at hright
  exact absurd ((chapRight_iff hmem).1 (hright hmem .md5 0 [])) (by decide)

end Libiscsi
