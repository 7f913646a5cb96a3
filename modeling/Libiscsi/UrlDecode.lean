import Libiscsi.Url

/-!
# The decoder of URLs

The loop of `iscsi_decode_url_string` leaves its pointer two bytes behind the byte that it has
decoded, because the rest of the string is moved to the left and the pointer is not. So the two
bytes that follow an escape are never looked at. `decoded` is what the loop makes of a string
(`decodeLoop_eq`), and it is the target of a URL exactly if no escape begins in the two bytes that
follow another one (`decoded_encodeTarget`).
-/

namespace Libiscsi

open CString

/-! ## The loop -/

/-- The string that the loop leaves. -/
def decoded : CStr → CStr
  | [] => []
  | b :: s =>
    if b ≠ 0x25 then b :: decoded s
    else
      match s with
      | hi :: lo :: x :: y :: s => hexByte hi lo :: x :: y :: decoded s
      | hi :: lo :: s => hexByte hi lo :: s
      | s => b :: s

theorem decoded_of_ne {b : UInt8} (h : b ≠ 0x25) (s : CStr) :
    decoded (b :: s) = b :: decoded s := by
  rw [decoded.eq_def]
  exact if_pos h

section
variable {pre s post : List UInt8}

theorem urlByte_append {i k : Nat} {b : UInt8} (h : i = pre.length + k) (hb : s[k]? = some b) :
    urlByte (pre ++ s) i = .ok b := by
  subst h
  unfold urlByte
  rw [List.getElem?_append_right (Nat.le_add_right _ _), Nat.add_sub_cancel_left, hb]

/-- The string behind a part of the buffer. -/
theorem urlString_append {i : Nat} (h : i = pre.length) (hs : 0 ∉ s) :
    urlString (pre ++ (s ++ 0 :: post)) i = .ok s := by
  subst h
  unfold urlString
  rw [List.drop_left, if_pos (List.mem_append_right _ List.mem_cons_self), first_append hs]

/-- The string that is moved over has the length that it had: its bytes are bytes of the string,
before and after they are moved. -/
theorem urlString_moved (h : 0 ∉ s) {a b c : UInt8} :
    ∃ t, t.length = s.length ∧ urlString
      (pre ++ c :: (s ++ ((a :: b :: s).drop s.length ++ 0 :: post))) (pre.length + 3) = .ok t := by
  have hsplit : pre ++ c :: (s ++ ((a :: b :: s).drop s.length ++ 0 :: post)) =
      (pre ++ c :: (s ++ (a :: b :: s).drop s.length).take 2) ++
        ((s ++ (a :: b :: s).drop s.length).drop 2 ++ 0 :: post) := by
    conv_lhs => rw [← List.append_assoc s, ← List.take_append_drop 2 (s ++ _)]
    simp only [List.append_assoc, List.cons_append]
  have hlen : (s ++ (a :: b :: s).drop s.length).length = s.length + 2 := by
    rw [List.length_append, List.length_drop, List.length_cons, List.length_cons]
    omega
  refine ⟨(s ++ (a :: b :: s).drop s.length).drop 2, ?_, ?_⟩
  · rw [List.length_drop, hlen]
    rfl
  rw [hsplit]
  refine urlString_append ?_ fun hmem => ?_
  · rw [List.length_append, List.length_cons, List.length_take, hlen]
    omega
  rw [List.drop_append] at hmem
  rcases List.mem_append.1 hmem with hmem | hmem
  · exact h (List.mem_of_mem_drop hmem)
  · rw [List.drop_drop] at hmem
    obtain ⟨n, hn⟩ : ∃ n, s.length + (2 - s.length) = n + 2 :=
      ⟨_, (Nat.sub_add_cancel (by omega)).symm⟩
    rw [hn, List.drop_succ_cons, List.drop_succ_cons] at hmem
    exact h (List.mem_of_mem_drop hmem)

/-- What becomes of the buffer when an escape is decoded: the rest of the string is moved to the
left over two bytes, and ended there. Behind it stands the last byte of the string once more, with
the old NUL. -/
theorem decodeEscape_eq (h : 0 ∉ s) {hi lo : UInt8} :
    decodeEscape (pre ++ 0x25 :: hi :: lo :: (s ++ 0 :: post)) pre.length hi lo =
      .ok (pre ++ hexByte hi lo ::
        (s ++ 0 :: ((hi :: lo :: s).drop (s.length + 1) ++ 0 :: post))) := by
  have hset : (pre ++ 0x25 :: hi :: lo :: (s ++ 0 :: post)).set pre.length (hexByte hi lo) =
      pre ++ hexByte hi lo :: hi :: lo :: (s ++ 0 :: post) := by
    rw [List.set_append_right _ _ le_rfl, Nat.sub_self, List.set_cons_zero]
  have hrest : urlString (pre ++ hexByte hi lo :: hi :: lo :: (s ++ 0 :: post))
      (pre.length + 3) = .ok s := by
    have hsplit : pre ++ hexByte hi lo :: hi :: lo :: (s ++ 0 :: post) =
        (pre ++ [hexByte hi lo, hi, lo]) ++ (s ++ 0 :: post) := by
      rw [List.append_assoc]
      rfl
    rw [hsplit]
    exact urlString_append (by rw [List.length_append]; rfl) h
  have hmove : moveTo (pre ++ hexByte hi lo :: hi :: lo :: (s ++ 0 :: post)) (pre.length + 1) s =
      pre ++ hexByte hi lo :: (s ++ ((hi :: lo :: s).drop s.length ++ 0 :: post)) := by
    have htake : (pre ++ hexByte hi lo :: hi :: lo :: (s ++ 0 :: post)).take (pre.length + 1) =
        pre ++ [hexByte hi lo] := by
      rw [List.take_length_add_append]
      rfl
    have hdrop : (pre ++ hexByte hi lo :: hi :: lo :: (s ++ 0 :: post)).drop
        (pre.length + 1 + s.length) = (hi :: lo :: s).drop s.length ++ 0 :: post := by
      rw [Nat.add_assoc, ← List.drop_drop, List.drop_left, Nat.add_comm 1, List.drop_succ_cons,
        ← List.cons_append, ← List.cons_append, List.drop_append_of_le_length]
      rw [List.length_cons, List.length_cons]
      omega
    unfold moveTo
    rw [htake, hdrop]
    simp only [List.append_assoc, List.cons_append, List.nil_append]
  obtain ⟨t, ht, hmoved⟩ := @urlString_moved pre s post h hi lo (hexByte hi lo)
  have hend : (pre ++ hexByte hi lo :: (s ++ ((hi :: lo :: s).drop s.length ++ 0 :: post))).set
      (pre.length + 1 + t.length) 0 =
        pre ++ hexByte hi lo ::
          (s ++ 0 :: ((hi :: lo :: s).drop (s.length + 1) ++ 0 :: post)) := by
    rw [ht, Nat.add_assoc, List.set_append_right _ _ (by omega), Nat.add_sub_cancel_left,
      Nat.add_comm 1, List.set_cons_succ, List.set_append_right _ _ le_rfl, Nat.sub_self]
    cases htail : (hi :: lo :: s).drop s.length with
    | nil =>
      have := congrArg List.length htail
      rw [List.length_drop, List.length_cons, List.length_cons, List.length_nil] at this
      omega
    | cons u rest =>
      rw [← List.drop_drop, htail, List.drop_succ_cons, List.drop_zero, List.cons_append,
        List.set_cons_zero]
  unfold decodeEscape
  simp only [hset, hrest, Outcome.ok_bind, hmove, hmoved, hend]

/-- The loop stops at a NUL. -/
theorem decodeLoop_end {fuel : Nat} :
    decodeLoop (fuel + 1) (pre ++ 0 :: post) pre.length = .ok (pre ++ 0 :: post) := by
  rw [decodeLoop, @urlByte_append pre (0 :: post) pre.length 0 0 rfl rfl]
  rfl

/-- A turn of the loop that goes one byte on. -/
theorem decodeLoop_byte {fuel : Nat} {b : UInt8} (hb : b ≠ 0) (hpercent : b ≠ 0x25) :
    decodeLoop (fuel + 1) (pre ++ b :: s) pre.length =
      decodeLoop fuel (pre ++ b :: s) (pre.length + 1) := by
  rw [decodeLoop, @urlByte_append pre (b :: s) pre.length 0 b rfl rfl, Outcome.ok_bind,
    if_neg hb, if_pos hpercent]

/-- An escape that the NUL cuts off ends the loop. -/
theorem decodeLoop_short {fuel : Nat} (h : 0 ∉ s) (hlen : s.length < 2) :
    decodeLoop (fuel + 1) (pre ++ 0x25 :: (s ++ 0 :: post)) pre.length =
      .ok (pre ++ 0x25 :: (s ++ 0 :: post)) := by
  rw [decodeLoop, @urlByte_append pre _ pre.length 0 0x25 rfl rfl, Outcome.ok_bind,
    if_neg (by decide), if_neg (by decide)]
  match s, h, hlen with
  | [], _, _ =>
    rw [@urlByte_append pre _ (pre.length + 1) 1 0 rfl rfl, Outcome.ok_bind, if_pos rfl]
  | [hi], h, _ =>
    have hhi : hi ≠ 0 := fun hhi => h (hhi ▸ List.mem_cons_self)
    rw [@urlByte_append pre _ (pre.length + 1) 1 hi rfl rfl, Outcome.ok_bind, if_neg hhi,
      @urlByte_append pre _ (pre.length + 2) 2 0 rfl rfl, Outcome.ok_bind, if_pos rfl]

/-- A turn of the loop that decodes an escape, and goes on two bytes behind it. -/
theorem decodeLoop_escape {fuel : Nat} {hi lo : UInt8} (hhi : hi ≠ 0) (hlo : lo ≠ 0)
    (h : 0 ∉ s) :
    decodeLoop (fuel + 1) (pre ++ 0x25 :: hi :: lo :: (s ++ 0 :: post)) pre.length =
      decodeLoop fuel (pre ++ hexByte hi lo ::
        (s ++ 0 :: ((hi :: lo :: s).drop (s.length + 1) ++ 0 :: post))) (pre.length + 3) := by
  rw [decodeLoop, @urlByte_append pre _ pre.length 0 0x25 rfl rfl, Outcome.ok_bind,
    if_neg (by decide), if_neg (by decide), @urlByte_append pre _ (pre.length + 1) 1 hi rfl rfl,
    Outcome.ok_bind, if_neg hhi, @urlByte_append pre _ (pre.length + 2) 2 lo rfl rfl,
    Outcome.ok_bind, if_neg hlo, decodeEscape_eq h, Outcome.ok_bind]

end

/-- The loop from a position on. By induction on the turns: a turn goes one byte on, or it decodes
an escape and goes on two bytes behind it, where less than two bytes are left in a string of its
own behind the one that is returned. -/
theorem decodeLoop_eq : ∀ {fuel : Nat} {s pre post : List UInt8}, 0 ∉ s → s.length < fuel →
    ∃ post', decodeLoop fuel (pre ++ (s ++ 0 :: post)) pre.length =
      .ok (pre ++ (decoded s ++ 0 :: post'))
  | 0, _, _, _, _, hfuel => absurd hfuel (Nat.not_lt_zero _)
  | _ + 1, [], _, post, _, _ => ⟨post, decodeLoop_end⟩
  | fuel + 1, b :: s, pre, post, h, hfuel => by
    have hb : b ≠ 0 := fun hb => h (hb ▸ List.mem_cons_self)
    have hs : 0 ∉ s := fun hs => h (List.mem_cons_of_mem _ hs)
    rw [List.length_cons] at hfuel
    by_cases hpercent : b ≠ 0x25
    · obtain ⟨post', hih⟩ := @decodeLoop_eq fuel s (pre ++ [b]) post hs (by omega)
      refine ⟨post', ?_⟩
      rw [List.length_append, List.append_assoc, List.append_assoc] at hih
      rw [List.cons_append, decodeLoop_byte hb hpercent, decoded_of_ne hpercent]
      exact hih
    obtain rfl := not_ne_iff.1 hpercent
    match s, hs, hfuel with
    | [], hs, _ => exact ⟨post, decodeLoop_short hs Nat.two_pos⟩
    | [hi], hs, _ => exact ⟨post, decodeLoop_short hs (Nat.lt_succ_self 1)⟩
    | hi :: lo :: t, hs, hfuel =>
      have hhi : hi ≠ 0 := fun hhi => hs (hhi ▸ List.mem_cons_self)
      have hlo : lo ≠ 0 := fun hlo => hs (List.mem_cons_of_mem _ (hlo ▸ List.mem_cons_self))
      have ht : 0 ∉ t := fun ht => hs (List.mem_cons_of_mem _ (List.mem_cons_of_mem _ ht))
      have hturn := @decodeLoop_escape pre t post fuel hi lo hhi hlo ht
      simp only [List.cons_append]
      rw [hturn]
      rw [List.length_cons, List.length_cons] at hfuel
      match t, ht, hfuel with
      | [], _, _ =>
        obtain ⟨post', hih⟩ := @decodeLoop_eq fuel [] (pre ++ [hexByte hi lo, 0, lo]) post
          List.not_mem_nil (by omega)
        exact ⟨_, by simpa [decoded] using hih⟩
      | [x], ht, hfuel =>
        obtain ⟨post', hih⟩ := @decodeLoop_eq fuel [x] (pre ++ [hexByte hi lo, x, 0]) post ht
          (by rw [List.length_singleton] at hfuel ⊢; omega)
        exact ⟨_, by simpa [decoded] using hih⟩
      | x :: y :: t, ht, hfuel =>
        obtain ⟨post', hih⟩ := @decodeLoop_eq fuel t (pre ++ [hexByte hi lo, x, y])
          ((hi :: lo :: x :: y :: t).drop ((x :: y :: t).length + 1) ++ 0 :: post)
          (fun h0 => ht (List.mem_cons_of_mem _ (List.mem_cons_of_mem _ h0)))
          (by rw [List.length_cons, List.length_cons] at hfuel; omega)
        exact ⟨post', by simpa [decoded] using hih⟩

/-! ## Targets -/

/-- How a byte of a target name stands in a URL: as it is, or as an escape, each of whose digits
may be a capital letter. -/
inductive Spelling where
  | plain
  | escaped (hiUpper loUpper : Bool)
  deriving DecidableEq, Repr

/-- A hexadecimal digit. -/
def hexDigit (upper : Bool) (n : UInt8) : UInt8 :=
  if n < 10 then 0x30 + n else (if upper then 0x41 else 0x61) + (n - 10)

/-- The bytes that end a part of a URL. -/
def urlDelimiters : List UInt8 := [0x2f, 0x3f, 0x40]

/-- A byte of a target name, with its spelling. Those that end a part of a URL or begin an escape
have to be escaped. -/
structure TargetByte where
  byte : UInt8
  spelling : Spelling
  byte_ne : byte ≠ 0
  plain : spelling = .plain → byte ≠ 0x25 ∧ byte ∉ urlDelimiters

namespace TargetByte

/-- The byte in the URL. -/
def spell (x : TargetByte) : CStr :=
  match x.spelling with
  | .plain => [x.byte]
  | .escaped u v => [0x25, hexDigit u (x.byte >>> 4), hexDigit v (x.byte &&& 0x0f)]

/-- The target in the URL. -/
def encodeTarget (t : List TargetByte) : CStr := t.flatMap spell

/-- Each escape is followed by two bytes that are none, or by the end. -/
def Spaced : List TargetByte → Prop
  | [] => True
  | x :: t => (x.spelling ≠ .plain → ∀ y ∈ t.take 2, y.spelling = .plain) ∧ Spaced t

end TargetByte

/-! ### Digits -/

/-- A digit is read back, and it is none of the bytes with a meaning of their own. -/
theorem hexDigit_spec (u : Bool) {n : UInt8} (h : n < 16) :
    h2i (hexDigit u n) = n ∧ hexDigit u n ≠ 0 ∧ hexDigit u n ≠ 0x25 ∧
      hexDigit u n ∉ urlDelimiters := by
  have hall : ∀ k : Fin 16, ∀ u : Bool, h2i (hexDigit u (UInt8.ofNat k)) = UInt8.ofNat k ∧
      hexDigit u (UInt8.ofNat k) ≠ 0 ∧ hexDigit u (UInt8.ofNat k) ≠ 0x25 ∧
        hexDigit u (UInt8.ofNat k) ∉ urlDelimiters := by
    decide
  have hn := hall ⟨n.toNat, UInt8.lt_iff_toNat_lt.1 h⟩ u
  rw [UInt8.ofNat_toNat] at hn
  exact hn

theorem nibbles (b : UInt8) : b >>> 4 < 16 ∧ b &&& 0x0f < 16 ∧
    (b >>> 4) <<< 4 ||| (b &&& 0x0f) = b := by
  have hall : ∀ k : Fin 256, UInt8.ofNat k >>> 4 < 16 ∧ UInt8.ofNat k &&& 0x0f < 16 ∧
      (UInt8.ofNat k >>> 4) <<< 4 ||| (UInt8.ofNat k &&& 0x0f) = UInt8.ofNat k := by
    decide +kernel
  have hb := hall ⟨b.toNat, b.toNat_lt⟩
  rw [UInt8.ofNat_toNat] at hb
  exact hb

/-- An escape is decoded to its byte. -/
theorem hexByte_hexDigit (u v : Bool) (b : UInt8) :
    hexByte (hexDigit u (b >>> 4)) (hexDigit v (b &&& 0x0f)) = b := by
  obtain ⟨hhi, hlo, hb⟩ := nibbles b
  unfold hexByte
  rw [(hexDigit_spec u hhi).1, (hexDigit_spec v hlo).1, hb]

/-! ### What is decoded -/

/-- An escape that two bytes follow. -/
theorem decoded_escape (u v : Bool) (b x y : UInt8) (s : CStr) :
    decoded (0x25 :: hexDigit u (b >>> 4) :: hexDigit v (b &&& 0x0f) :: x :: y :: s) =
      b :: x :: y :: decoded s := by
  rw [decoded.eq_def]
  refine (if_neg (by decide)).trans ?_
  exact congrArg (fun c => c :: x :: y :: decoded s) (hexByte_hexDigit u v b)

/-- An escape that less than two bytes follow. -/
theorem decoded_escape_end (u v : Bool) (b : UInt8) {s : CStr} (h : s.length < 2) :
    decoded (0x25 :: hexDigit u (b >>> 4) :: hexDigit v (b &&& 0x0f) :: s) = b :: s := by
  rw [decoded.eq_def]
  refine (if_neg (by decide)).trans ?_
  match s, h with
  | [], _ => exact congrArg (· :: []) (hexByte_hexDigit u v b)
  | [x], _ => exact congrArg (· :: [x]) (hexByte_hexDigit u v b)

namespace TargetByte

/-- **The decoder yields the name of the target exactly if each escape is followed by two bytes
that are none.** By induction on the target, whose first bytes are those that one turn of the loop
passes: an escape that the loop does not look at leaves more bytes than the name has. -/
theorem decoded_encodeTarget : ∀ t : List TargetByte,
    0 ∉ decoded (encodeTarget t) ∧ t.length ≤ (decoded (encodeTarget t)).length ∧
      (decoded (encodeTarget t) = t.map byte ↔ Spaced t)
  | [] => ⟨List.not_mem_nil, le_rfl, iff_of_true rfl trivial⟩
  | ⟨b, .plain, hb, hplain⟩ :: t => by
    obtain ⟨hzero, hlen, hiff⟩ := decoded_encodeTarget t
    have hdecoded : decoded (encodeTarget (⟨b, .plain, hb, hplain⟩ :: t)) =
        b :: decoded (encodeTarget t) := decoded_of_ne (hplain rfl).1 _
    rw [hdecoded]
    refine ⟨by simp [hb.symm, hzero], Nat.succ_le_succ hlen, ?_⟩
    rw [List.map_cons, List.cons_eq_cons, hiff]
    exact ⟨fun h => ⟨fun hne => absurd rfl hne, h.2⟩, fun h => ⟨rfl, h.2⟩⟩
  | [⟨b, .escaped u v, hb, hplain⟩] => by
    have hdecoded : decoded (encodeTarget [⟨b, .escaped u v, hb, hplain⟩]) = [b] :=
      decoded_escape_end u v b (s := []) Nat.two_pos
    rw [hdecoded]
    exact ⟨by simp [hb.symm], le_rfl,
      iff_of_true rfl ⟨fun _ _ hy => (List.not_mem_nil hy).elim, trivial⟩⟩
  | ⟨b, .escaped u v, hb, hplain⟩ :: ⟨b', .escaped u' v', hb', hplain'⟩ :: t => by
    obtain ⟨hzero, hlen, -⟩ := decoded_encodeTarget t
    obtain ⟨hhi, hlo, -⟩ := nibbles b'
    have hhi' := (hexDigit_spec u' hhi).2.1
    have hlo' := (hexDigit_spec v' hlo).2.1
    have hdecoded : decoded (encodeTarget (⟨b, .escaped u v, hb, hplain⟩ ::
        ⟨b', .escaped u' v', hb', hplain'⟩ :: t)) = b :: 0x25 :: hexDigit u' (b' >>> 4) ::
          hexDigit v' (b' &&& 0x0f) :: decoded (encodeTarget t) :=
      (decoded_escape u v b _ _ _).trans
        (congrArg (fun s => b :: 0x25 :: hexDigit u' (b' >>> 4) :: s)
          (decoded_of_ne (hexDigit_spec v' hlo).2.2.1 _))
    rw [hdecoded]
    simp only [List.length_cons]
    refine ⟨by simp [hb.symm, hhi'.symm, hlo'.symm, hzero], by omega,
      iff_of_false (fun h => ?_) fun h => ?_⟩
    · have hlen' := congrArg List.length h
      simp only [List.length_cons, List.map_cons, List.length_map] at hlen'
      omega
    · exact Spelling.noConfusion (h.1 Spelling.noConfusion _ List.mem_cons_self)
  | [⟨b, .escaped u v, hb, hplain⟩, ⟨b', .plain, hb', hplain'⟩] => by
    have hdecoded : decoded (encodeTarget [⟨b, .escaped u v, hb, hplain⟩,
        ⟨b', .plain, hb', hplain'⟩]) = [b, b'] :=
      decoded_escape_end u v b (s := [b']) (Nat.lt_succ_self 1)
    rw [hdecoded]
    refine ⟨by simp [hb.symm, hb'.symm], le_rfl,
      iff_of_true rfl ⟨fun _ y hy => ?_, fun h => absurd rfl h, trivial⟩⟩
    obtain rfl := List.mem_singleton.1 hy
    rfl
  | ⟨b, .escaped u v, hb, hplain⟩ :: ⟨b', .plain, hb', hplain'⟩ ::
      ⟨b'', .plain, hb'', hplain''⟩ :: t => by
    obtain ⟨hzero, hlen, hiff⟩ := decoded_encodeTarget t
    have hdecoded : decoded (encodeTarget (⟨b, .escaped u v, hb, hplain⟩ ::
        ⟨b', .plain, hb', hplain'⟩ :: ⟨b'', .plain, hb'', hplain''⟩ :: t)) =
          b :: b' :: b'' :: decoded (encodeTarget t) := decoded_escape u v b _ _ _
    rw [hdecoded]
    simp only [List.length_cons, List.map_cons, List.cons_eq_cons, true_and, hiff]
    refine ⟨by simp [hb.symm, hb'.symm, hb''.symm, hzero], by omega, fun h => ?_,
      fun h => h.2.2.2⟩
    refine ⟨fun _ y hy => ?_, fun hne => absurd rfl hne, fun hne => absurd rfl hne, h⟩
    rcases List.mem_cons.1 hy with rfl | hy
    · rfl
    · obtain rfl := List.mem_singleton.1 hy
      rfl
  | ⟨b, .escaped u v, hb, hplain⟩ :: ⟨b', .plain, hb', hplain'⟩ ::
      ⟨b'', .escaped u' v', hb'', hplain''⟩ :: t => by
    obtain ⟨hzero, hlen, -⟩ := decoded_encodeTarget t
    obtain ⟨hhi, hlo, -⟩ := nibbles b''
    have hhi' := (hexDigit_spec u' hhi).2.1
    have hlo' := (hexDigit_spec v' hlo).2.1
    have hdecoded : decoded (encodeTarget (⟨b, .escaped u v, hb, hplain⟩ ::
        ⟨b', .plain, hb', hplain'⟩ :: ⟨b'', .escaped u' v', hb'', hplain''⟩ :: t)) =
          b :: b' :: 0x25 :: hexDigit u' (b'' >>> 4) :: hexDigit v' (b'' &&& 0x0f) ::
            decoded (encodeTarget t) :=
      (decoded_escape u v b _ _ _).trans
        (congrArg (fun s => b :: b' :: 0x25 :: s)
          ((decoded_of_ne (hexDigit_spec u' hhi).2.2.1 _).trans
            (congrArg (hexDigit u' (b'' >>> 4) :: ·)
              (decoded_of_ne (hexDigit_spec v' hlo).2.2.1 _))))
    rw [hdecoded]
    simp only [List.length_cons]
    refine ⟨by simp [hb.symm, hb'.symm, hhi'.symm, hlo'.symm, hzero], by omega,
      iff_of_false (fun h => ?_) fun h => ?_⟩
    · have hlen' := congrArg List.length h
      simp only [List.length_cons, List.map_cons, List.length_map] at hlen'
      omega
    · exact Spelling.noConfusion
        (h.1 Spelling.noConfusion _ (List.mem_cons_of_mem _ List.mem_cons_self))

end TargetByte

end Libiscsi
