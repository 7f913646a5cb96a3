import Libiscsi.Chap
import Libiscsi.Md5
import Libiscsi.Sha
import Libiscsi.Sha3

/-!
# The digests of CHAP

The variants of `compute_chap_r` (`lib/login.c`) as they call their hash functions: the identifier,
the password and then every byte of the challenge is a piece of its own. The digest is that of all
the bytes one after the other (`chapDigest_right`), so these are the variants over hash functions of
a whole message (`chapDigest_eq`).
-/

namespace Libiscsi

open BlockHash CString

/-! ## The variants -/

section
variable {κ : Type} (mem : Nat → UInt8) (update : κ → List UInt8 → κ)

/-- The loop over the challenge, with the hash context. The number bounds the turns. -/
def chapUpdates : Nat → Nat → κ → Option κ
  | 0, _, _ => none
  | fuel + 1, strp, ctx =>
    if mem strp = 0 then some ctx
    else chapUpdates fuel (strp + 2) (update ctx [hexByte (mem strp) (mem (strp + 1))])

/-- The identifier, the password and the challenge. -/
def chapHashed (fuel : Nat) (chapI : Int) (passwd : CStr) (ctx : κ) : Option κ :=
  chapUpdates mem update fuel 0 (update (update ctx [UInt8.ofInt chapI]) passwd)

end

section
variable (garbage : List UInt8) (mem : Nat → UInt8)

/-- `compute_chap_r_md5`: the digest. `garbage` is what the new context holds. -/
def chapDigestMd5 (fuel : Nat) (chapI : Int) (passwd : CStr) : Option (Except Nat (List UInt8)) :=
  (chapHashed mem md5Update fuel chapI passwd (md5Init garbage)).map fun ctx => .ok (md5Final ctx)

/-- `compute_chap_r_sha1` and `compute_chap_r_sha256`, which do not look at the return values of the
input. -/
def chapDigestSha {σ : Type} (sha : ShaFamily σ) (fuel : Nat) (chapI : Int) (passwd : CStr) :
    Option (Except Nat (List UInt8)) :=
  (chapHashed mem (fun ctx piece => (sha.input ctx piece).2) fuel chapI passwd
    (sha.reset garbage)).map sha.result

/-- `compute_chap_r_sha3_256`. -/
def chapDigestSha3256 (fuel : Nat) (chapI : Int) (passwd : CStr) :
    Option (Except Nat (List UInt8)) :=
  (chapHashed mem sha3Update fuel chapI passwd (sha3Init 32)).map fun ctx => .ok (sha3Final ctx)

/-- `compute_chap_r`. -/
def chapDigest (auth : ChapAuth) : Nat → Int → CStr → Option (Except Nat (List UInt8)) :=
  match auth with
  | .md5 => chapDigestMd5 garbage mem
  | .sha1 => chapDigestSha garbage mem sha1
  | .sha256 => chapDigestSha garbage mem sha256
  | .sha3256 => chapDigestSha3256 mem

end

/-! ## Hash functions of a text -/

/-- A hash function that compresses the blocks of the padded message. -/
structure HashFunction where
  State : Type
  size : Nat
  compress : State → List UInt8 → State
  start : State
  padding : Nat → List UInt8
  out : State → List UInt8

/-- The digest of a message. -/
def HashFunction.digest (h : HashFunction) (message : List UInt8) : List UInt8 :=
  h.out (absorb h.size h.compress ⟨h.start, []⟩ (message ++ h.padding message.length)).state

/-- The hash function of a method. -/
def chapHash : ChapAuth → HashFunction
  | .md5 => ⟨_, 64, md5Transform, md5Start, md5Padding, Md5State.digest⟩
  | .sha1 => ⟨_, 64, sha1.process, sha1.start, shaPadding, sha1.digest⟩
  | .sha256 => ⟨_, 64, sha256.process, sha256.start, shaPadding, sha256.digest⟩
  | .sha3256 => ⟨_, 200 - 2 * 32, sha3Absorb, List.replicate 200 0, sha3Padding (200 - 2 * 32),
      List.take 32⟩

/-- The hash functions that the responses are computed with. -/
def messageHashes : Hashes where
  md5 := (chapHash .md5).digest
  sha1 := (chapHash .sha1).digest
  sha256 := (chapHash .sha256).digest
  sha3256 := (chapHash .sha3256).digest

/-- The message of a response: the identifier, the password, the bytes of the challenge. -/
def chapPieces (chapI : Int) (passwd : CStr) (bytes : List UInt8) : List (List UInt8) :=
  [UInt8.ofInt chapI] :: passwd :: bytes.map fun b => [b]

theorem flatten_chapPieces (chapI : Int) (passwd : CStr) (bytes : List UInt8) :
    (chapPieces chapI passwd bytes).flatten = UInt8.ofInt chapI :: passwd ++ bytes := by
  have hbytes : (bytes.map fun b => [b]).flatten = bytes := by
    rw [← List.flatMap_def, List.flatMap_singleton']
  unfold chapPieces
  rw [List.flatten_cons, List.flatten_cons, hbytes]
  rfl

/-- A text has two digits for each byte. -/
theorem length_hexBytes : ∀ text : CStr, (hexBytes text).length ≤ text.length
  | [] => le_rfl
  | [_] => Nat.zero_le _
  | _ :: _ :: text => by
    have := length_hexBytes text
    rw [hexBytes, List.length_cons, List.length_cons, List.length_cons]
    omega

/-! ## The loop -/

section
variable {κ : Type} {mem : Nat → UInt8} {update : κ → List UInt8 → κ}

/-- The loop gives the bytes of the challenge to the hash, one by one. -/
theorem chapUpdates_eq (fuel strp : Nat) (ctx : κ) : chapUpdates mem update fuel strp ctx =
    (chapLoop mem fuel strp).map fun run => (run.2.map fun b => [b]).foldl update ctx := by
  induction fuel generalizing strp ctx with
  | zero => rfl
  | succ fuel ih =>
    rw [chapUpdates, chapLoop]
    by_cases hend : mem strp = 0
    · rw [if_pos hend, if_pos hend]
      rfl
    · rw [if_neg hend, if_neg hend, ih]
      cases hloop : chapLoop mem fuel (strp + 2) with
      | none => rfl
      | some run => rfl

/-- The context has got the pieces of the message. -/
theorem chapHashed_eq (fuel : Nat) (chapI : Int) (passwd : CStr) (ctx : κ) :
    chapHashed mem update fuel chapI passwd ctx = (chapLoop mem fuel 0).map fun run =>
      (chapPieces chapI passwd run.2).foldl update ctx := by
  unfold chapHashed
  rw [chapUpdates_eq]
  rfl

/-- The challenge has a byte for each turn at most. -/
theorem length_of_chapLoop {fuel strp : Nat} {run : List Nat × List UInt8}
    (h : chapLoop mem fuel strp = some run) : run.2.length < fuel := by
  induction fuel generalizing strp run with
  | zero => cases h
  | succ fuel ih =>
    rw [chapLoop] at h
    split at h
    · obtain rfl := Option.some.inj h
      exact Nat.succ_pos _
    · split at h
      · cases h
      · rename_i hloop
        obtain rfl := Option.some.inj h
        exact Nat.succ_lt_succ (ih hloop)

end

/-! ## The digest -/

section
variable {garbage : List UInt8} {mem : Nat → UInt8} {auth : ChapAuth} {fuel : Nat} {chapI : Int}
  {passwd : CStr}

/-- The model of the responses uses the hash function of the method. -/
theorem computeChapR_messageHashes : computeChapR mem messageHashes auth fuel chapI passwd =
    computeChapRWith mem (chapHash auth).digest fuel chapI passwd := by
  cases auth <;> rfl

/-- The pieces of a message lead to its digest. -/
theorem chapDigest_of_loop {run : List Nat × List UInt8} (hgarbage : garbage.length = 64)
    (hpasswd : passwd.length < 2 ^ 32)
    (hshort : (UInt8.ofInt chapI :: passwd ++ run.2).length < 2 ^ 61)
    (hloop : chapLoop mem fuel 0 = some run) :
    chapDigest garbage mem auth fuel chapI passwd =
      some (.ok ((chapHash auth).digest (UInt8.ofInt chapI :: passwd ++ run.2))) := by
  rw [← flatten_chapPieces] at hshort ⊢
  have hcontext : ∀ {κ : Type} (update : κ → List UInt8 → κ) (ctx : κ),
      chapHashed mem update fuel chapI passwd ctx =
        some ((chapPieces chapI passwd run.2).foldl update ctx) := by
    intro κ update ctx
    rw [chapHashed_eq, hloop]
    rfl
  have hsha : ∀ {σ : Type} (sha : ShaFamily σ), chapDigestSha garbage mem sha fuel chapI passwd =
      some (sha.hash garbage (chapPieces chapI passwd run.2)) := by
    intro σ sha
    unfold chapDigestSha
    rw [hcontext]
    rfl
  cases auth with
  | md5 =>
    have hpieces : ∀ piece ∈ chapPieces chapI passwd run.2, piece.length < 2 ^ 32 := by
      unfold chapPieces
      rw [List.forall_mem_cons, List.forall_mem_cons, List.forall_mem_map]
      exact ⟨Nat.one_lt_two_pow (by decide), hpasswd, fun _ _ => Nat.one_lt_two_pow (by decide)⟩
    change chapDigestMd5 garbage mem fuel chapI passwd = _
    unfold chapDigestMd5
    rw [hcontext, Option.map_some, md5_absorb hgarbage hpieces]
    rfl
  | sha1 =>
    refine (hsha sha1).trans ?_
    rw [ShaFamily.hash_absorb sha1 hgarbage, if_pos hshort]
    rfl
  | sha256 =>
    refine (hsha sha256).trans ?_
    rw [ShaFamily.hash_absorb sha256 hgarbage, if_pos hshort]
    rfl
  | sha3256 =>
    change chapDigestSha3256 mem fuel chapI passwd = _
    unfold chapDigestSha3256
    rw [hcontext, Option.map_some, sha3_absorb (by decide)]
    rfl

/-- **The variants are those over hash functions of a whole message**, turn by turn of the loop. -/
theorem chapDigest_eq (hgarbage : garbage.length = 64) (hpasswd : passwd.length < 2 ^ 32)
    (hfuel : passwd.length + fuel < 2 ^ 61) : chapDigest garbage mem auth fuel chapI passwd =
      (computeChapR mem messageHashes auth fuel chapI passwd).map fun run => .ok run.digest := by
  rw [computeChapR_messageHashes]
  unfold computeChapRWith
  cases hloop : chapLoop mem fuel 0 with
  | none =>
    have hcontext : ∀ {κ : Type} (update : κ → List UInt8 → κ) (ctx : κ),
        chapHashed mem update fuel chapI passwd ctx = none := by
      intro κ update ctx
      rw [chapHashed_eq, hloop]
      rfl
    cases auth with
    | md5 => exact congrArg (Option.map _) (hcontext _ _)
    | sha1 => exact congrArg (Option.map _) (hcontext _ _)
    | sha256 => exact congrArg (Option.map _) (hcontext _ _)
    | sha3256 => exact congrArg (Option.map _) (hcontext _ _)
  | some run =>
    have hbytes := length_of_chapLoop hloop
    refine chapDigest_of_loop hgarbage hpasswd ?_ hloop
    rw [List.length_append, List.length_cons]
    omega

/-- **The response to a challenge.** With an even number of digits every method gives the digest of
the identifier, the password and the bytes of the challenge. -/
theorem chapDigest_right {text : CStr} (hgarbage : garbage.length = 64)
    (hmem : HoldsText mem 0 text) (heven : Even text.length) (hpasswd : passwd.length < 2 ^ 32)
    (htext : text.length < 2 ^ 32) : ∃ fuel,
      chapDigest garbage mem auth fuel chapI passwd =
        some (.ok ((chapHash auth).digest (UInt8.ofInt chapI :: passwd ++ hexBytes text))) := by
  obtain ⟨fuel, reads, hloop, -⟩ := chapLoop_even text hmem heven
  refine ⟨fuel, chapDigest_of_loop hgarbage hpasswd ?_ hloop⟩
  have hbytes : (reads, hexBytes text).2.length ≤ text.length := length_hexBytes text
  rw [List.length_append, List.length_cons]
  omega

end

/-- The response to four digits. -/
theorem chapDigest_right_four : ∃ fuel,
    chapDigest (List.replicate 64 0) (textMemory (ofString "abcd")) .sha256 fuel 7
        (ofString "secret") =
      some (.ok ((chapHash .sha256).digest
        (UInt8.ofInt 7 :: ofString "secret" ++ hexBytes (ofString "abcd")))) :=
  chapDigest_right (by decide)
    ⟨by decide, by decide, by decide, by decide, by decide, by decide, by decide, by decide, rfl⟩
    (by decide) (by decide) (by decide)

end Libiscsi
