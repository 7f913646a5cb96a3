import Libiscsi.LoginRun

/-!
# The bounds of a login reply

The loop of `iscsi_process_login_reply` over the data segment, with each access to the segment and
to a field of the context checked against its bounds. A function of the C library that is given a
position in the segment reads the string there with its NUL, or less. No check ever fails
(`checkedLogin_eq`).
-/

namespace Libiscsi

open CString

/-! ## Checked accesses -/

/-- An access beyond the data segment or beyond a field, or a loop that does not end. -/
inductive LoginFault where
  | segment
  | field
  | endless
  deriving DecidableEq, Repr

section
variable (data : List UInt8)

/-- A byte of the segment. -/
def readByte (i : Nat) : Except LoginFault UInt8 :=
  match data[i]? with
  | some b => .ok b
  | none => .error .segment

/-- `memchr(ptr, 0, size)`. -/
def memchr : Nat → Nat → Except LoginFault (Option Nat)
  | _, 0 => .ok none
  | ptr, size + 1 => do
    let b ← readByte data ptr
    if b = 0 then .ok (some ptr) else memchr (ptr + 1) size

/-- The string at a position, whose end is looked for. The number bounds the bytes. -/
def stringAt : Nat → Nat → Except LoginFault CStr
  | 0, _ => .error .segment
  | fuel + 1, i => do
    let b ← readByte data i
    if b = 0 then .ok []
    else
      let s ← stringAt fuel (i + 1)
      .ok (b :: s)

/-- A library function gets `ptr + n`. -/
def stringArg (ptr n : Nat) : Except LoginFault CStr := stringAt data (data.length + 1) (ptr + n)

/-- `n` bytes are read from a field of this size, or written to it, from its beginning. -/
def fieldAccess (size n : Nat) : Except LoginFault Unit :=
  if n ≤ size then .ok () else .error .field

/-- `if (!strncmp(ptr, key, n))` and what is done with `ptr + n` then. -/
def checkedKey {α : Type} (ptr : Nat) (s : CStr) (key : String) (n : Nat) (c : α)
    (f : CStr → Except LoginFault α) : Except LoginFault α :=
  if hasKey s key then do
    let v ← stringArg data ptr n
    f v
  else .ok c

/-! ## The loop -/

/-- The keys that are not for CHAP. -/
def checkedLoginKey (ptr : Nat) (s : CStr) (c : Context) : Except LoginFault Context := do
  let c ← checkedKey data ptr s "TargetAddress=" 14 c fun v => do
    fieldAccess (maxStringSize + 1) maxStringSize
    .ok { c with targetAddress := strncpy v maxStringSize }
  let c ← checkedKey data ptr s "TargetName=" 11 c fun v => do
    fieldAccess (maxIscsiNameSize + 1) maxIscsiNameSize
    .ok { c with targetName2 := strncpy v maxIscsiNameSize }
  let c ← checkedKey data ptr s "HeaderDigest=" 13 c fun v =>
    .ok { c with wantHeaderDigest := if v == ofString "CRC32C" then .crc32c else .none }
  let c ← checkedKey data ptr s "DataDigest=" 11 c fun v =>
    .ok { c with wantDataDigest := if v == ofString "CRC32C" then .crc32c else .none }
  let c ← checkedKey data ptr s "FirstBurstLength=" 17 c fun v =>
    .ok { c with firstBurstLength := storedInt v }
  let c ← checkedKey data ptr s "InitialR2T=" 11 c fun v =>
    .ok { c with useInitialR2t := !(v == ofString "No") }
  let c ← checkedKey data ptr s "ImmediateData=" 14 c fun v =>
    .ok <|
      if v == ofString "No" then { c with useImmediateData := false }
      else if !c.wantImmediateData then { c with useImmediateData := false }
      else c
  let c ← checkedKey data ptr s "MaxBurstLength=" 15 c fun v =>
    .ok { c with maxBurstLength := storedInt v }
  let c ← checkedKey data ptr s "MaxRecvDataSegmentLength=" 25 c fun v =>
    .ok { c with targetMaxRecvDataSegmentLength := storedInt v }
  let c ← checkedKey data ptr s "InitiatorRecvDataSegmentLength=" 31 c fun v =>
    .ok { c with
      initiatorMaxRecvDataSegmentLength := storedMin v c.initiatorMaxRecvDataSegmentLength }
  checkedKey data ptr s "TargetRecvDataSegmentLength=" 28 c fun v =>
    .ok { c with
      targetMaxRecvDataSegmentLength := storedMin v c.targetMaxRecvDataSegmentLength }

/-- The keys `AuthMethod`, `CHAP_A` and `CHAP_I`. -/
def checkedChapPhaseKey (ptr : Nat) (s : CStr) (c : Context) : Except LoginFault Context := do
  let c ← checkedKey data ptr s "AuthMethod=" 11 c fun v =>
    .ok (if v == ofString "CHAP" then { c with secnegPhase := .selectAlgorithm } else c)
  let c ← checkedKey data ptr s "CHAP_A=" 7 c fun v =>
    .ok { c with chapA := atoi v, secnegPhase := .sendResponse }
  checkedKey data ptr s "CHAP_I=" 7 c fun v =>
    .ok { c with chapI := atoi v, secnegPhase := .sendResponse }

/-- The key `CHAP_C`, whose text is not too long: `strncat` writes it with a NUL. -/
def checkedChapCKey (ptr : Nat) (s : CStr) (c : Context) : Except LoginFault Context :=
  checkedKey data ptr s "CHAP_C=0x" 9 c fun v => do
    fieldAccess (maxChapCLength + 1) (min v.length (s.length - 9) + 1)
    .ok { c with chapC := v.take (s.length - 9), secnegPhase := .sendResponse }

/-- The key `CHAP_N`. -/
def checkedChapNKey (ptr : Nat) (s : CStr) (st : LoginParse) :
    Except LoginFault (Except Context LoginParse) :=
  checkedKey data ptr s "CHAP_N=" 7 (.ok st) fun v =>
    .ok (if st.c.targetUser ≠ v then .error st.c else .ok { st with mustHaveChapN := false })

/-- `MAX_CHAP_R_SIZE`. -/
def maxChapRSize : Nat := 32

/-- The key `CHAP_R`. All digits are read here; the loop ends with the first that is wrong. -/
def checkedChapRKey (ptr : Nat) (s : CStr) (st : LoginParse) :
    Except LoginFault (Except Context LoginParse) :=
  if hasKey s "CHAP_R=0x" then
    let size := st.c.chapAuth.responseSize
    if s.length ≠ 9 + 2 * size then .ok (.error st.c)
    else do
      let received ← (List.range size).mapM fun i => do
        let hi ← readByte data (ptr + (9 + 2 * i))
        let lo ← readByte data (ptr + (9 + 2 * i + 1))
        .ok (hexByte hi lo)
      fieldAccess maxChapRSize size
      .ok (if received ≠ st.c.targetChapR.take size then .error st.c
        else .ok { st with mustHaveChapR := false })
  else .ok (.ok st)

/-- One string, of length `len`. -/
def checkedLoginString (ptr : Nat) (st : LoginParse) :
    Except LoginFault (Except Context LoginParse) := do
  let s ← stringArg data ptr 0
  let c ← checkedLoginKey data ptr s st.c
  let c ← checkedChapPhaseKey data ptr s c
  if chapCTooLong s then .ok (.error c)
  else
    let c ← checkedChapCKey data ptr s c
    match ← checkedChapNKey data ptr s { st with c } with
    | .error c => .ok (.error c)
    | .ok st => checkedChapRKey data ptr s st

/-- The loop, at `ptr` with `size` bytes left. The number bounds the turns. -/
def checkedStrings :
    Nat → Nat → Nat → LoginParse → Except LoginFault (Except (Context × Int) LoginParse)
  | 0, _, _, _ => .error .endless
  | fuel + 1, ptr, size, st =>
    if size = 0 then .ok (.ok st)
    else do
      match ← memchr data ptr size with
      | none => .ok (.error (st.c, -1))
      | some end_ =>
        let len := end_ - ptr
        if len = 0 then .ok (.ok st)
        else
          match ← checkedLoginString data ptr st with
          | .error c => .ok (.error (c, 0))
          | .ok st => checkedStrings fuel (ptr + (len + 1)) (size - (len + 1)) st

end

/-! ## The accesses to a string -/

section
variable {data pre s rest : List UInt8} {ptr n : Nat}

/-- A byte of the segment, by what stands before it. -/
theorem readByte_append (pre : List UInt8) (b : UInt8) (rest : List UInt8) :
    readByte (pre ++ b :: rest) pre.length = .ok b := by
  unfold readByte
  rw [List.getElem?_append_right le_rfl, Nat.sub_self]
  rfl

/-- `memchr` finds the NUL after the string that the rest of the segment begins with. -/
theorem memchr_append : ∀ (rest pre : List UInt8),
    memchr (pre ++ rest) pre.length rest.length =
      .ok (if (first rest).length = rest.length then none
        else some (pre.length + (first rest).length))
  | [], _ => rfl
  | b :: rest, pre => by
    rw [List.length_cons, memchr, readByte_append, Outcome.ok_bind]
    by_cases hb : b = 0
    · subst hb
      rw [if_pos rfl]
      rfl
    · have hcons : first (b :: rest) = b :: first rest := by
        rw [first, List.takeWhile_cons_of_pos (by simpa using hb), first]
      have ih := memchr_append rest (pre ++ [b])
      rw [List.append_assoc, List.singleton_append, List.length_append, List.length_singleton]
        at ih
      rw [if_neg hb, ih, hcons]
      simp only [List.length_cons, Nat.add_right_cancel_iff]
      split
      · rfl
      · rw [Nat.add_assoc, Nat.add_comm 1]

/-- A string is read up to its NUL. -/
theorem stringAt_append : ∀ {fuel : Nat} (s pre : List UInt8), 0 ∉ s → s.length < fuel →
    stringAt (pre ++ s ++ 0 :: rest) fuel pre.length = .ok s
  | 0, _, _, _, hfuel => absurd hfuel (Nat.not_lt_zero _)
  | fuel + 1, [], pre, _, _ => by
    rw [stringAt, List.append_nil, readByte_append, Outcome.ok_bind, if_pos rfl]
  | fuel + 1, b :: s, pre, hs, hfuel => by
    obtain ⟨hb, hs⟩ := not_or.1 (List.mem_cons.not.1 hs)
    have ih := stringAt_append s (pre ++ [b]) hs (Nat.lt_of_succ_lt_succ hfuel)
    rw [List.append_assoc pre, List.singleton_append, List.length_append, List.length_singleton]
      at ih
    have hread : readByte (pre ++ (b :: s) ++ 0 :: rest) pre.length = .ok b := by
      rw [List.append_assoc]
      exact readByte_append ..
    rw [stringAt, hread, Outcome.ok_bind, if_neg (Ne.symm hb), ih]
    rfl

/-- The string `s` stands at `ptr`, with its NUL. -/
def StandsAt (data : List UInt8) (ptr : Nat) (s : CStr) : Prop :=
  0 ∉ s ∧ ∃ pre rest, data = pre ++ s ++ 0 :: rest ∧ pre.length = ptr

/-- A position in a string. -/
theorem StandsAt.stringArg (h : StandsAt data ptr s) (hn : n ≤ s.length) :
    stringArg data ptr n = .ok (s.drop n) := by
  obtain ⟨hs, pre, rest, rfl, rfl⟩ := h
  have hsplit : pre ++ s ++ 0 :: rest = (pre ++ s.take n) ++ s.drop n ++ 0 :: rest := by
    rw [List.append_assoc pre (s.take n), List.take_append_drop]
  have hpos : (pre ++ s.take n).length = pre.length + n := by
    rw [List.length_append, List.length_take_of_le hn]
  unfold Libiscsi.stringArg
  rw [hsplit, ← hpos]
  refine stringAt_append _ _ (fun hmem => hs (List.mem_of_mem_drop hmem)) ?_
  simp only [List.length_append, List.length_cons]
  omega

/-- A byte of a string. -/
theorem StandsAt.readByte (h : StandsAt data ptr s) (hn : n < s.length) :
    readByte data (ptr + n) = .ok (byte s n) := by
  obtain ⟨hs, pre, rest, rfl, rfl⟩ := h
  unfold Libiscsi.readByte byte
  rw [List.append_assoc, List.getElem?_append_right (by omega), Nat.add_sub_cancel_left,
    List.getElem?_append_left hn, List.getElem?_eq_getElem hn, List.getD_eq_getElem _ _ hn]

/-- A string with a key is as long as the key. -/
theorem length_le_of_hasKey {key : String} (h : hasKey s key = true) :
    (ofString key).length ≤ s.length :=
  (List.isPrefixOf_iff_prefix.1 h).length_le

/-- What follows a key is in the segment. -/
theorem StandsAt.checkedKey {α : Type} {key : String} {c a : α}
    {f : CStr → Except LoginFault α} (h : StandsAt data ptr s) (hf : f (s.drop n) = .ok a)
    (hn : n ≤ (ofString key).length := by decide) :
    checkedKey data ptr s key n c f = .ok (if hasKey s key then a else c) := by
  unfold Libiscsi.checkedKey
  split
  · rename_i hkey
    rw [h.stringArg (hn.trans (length_le_of_hasKey hkey)), Outcome.ok_bind, hf]
  · rfl

/-- What follows a key is in the segment, and the keys after it go on from what it did. -/
theorem StandsAt.checkedKey_bind {α β : Type} {key : String} {c a : α}
    {f : CStr → Except LoginFault α} {k : α → Except LoginFault β} {r : Except LoginFault β}
    (c' : α) (h : StandsAt data ptr s) (hf : f (s.drop n) = .ok a)
    (hc' : (if hasKey s key then a else c) = c') (hk : k c' = r)
    (hn : n ≤ (ofString key).length := by decide) :
    (Libiscsi.checkedKey data ptr s key n c f >>= k) = r := by
  rw [h.checkedKey hf hn, hc', Outcome.ok_bind, hk]

/-! ## The keys -/

/-- The keys that are not for CHAP stay in bounds. -/
theorem checkedLoginKey_eq (h : StandsAt data ptr s) (c : Context) :
    checkedLoginKey data ptr s c = .ok (loginKey c s) := by
  unfold checkedLoginKey loginKey
  extract_lets c₁ c₂ c₃ c₄ c₅ c₆ c₇ c₈ c₉ c₁₀
  refine h.checkedKey_bind c₁ rfl rfl ?_
  refine h.checkedKey_bind c₂ rfl rfl ?_
  refine h.checkedKey_bind c₃ rfl rfl ?_
  refine h.checkedKey_bind c₄ rfl rfl ?_
  refine h.checkedKey_bind c₅ rfl rfl ?_
  refine h.checkedKey_bind c₆ rfl rfl ?_
  refine h.checkedKey_bind c₇ rfl rfl ?_
  refine h.checkedKey_bind c₈ rfl rfl ?_
  refine h.checkedKey_bind c₉ rfl rfl ?_
  refine h.checkedKey_bind c₁₀ rfl rfl ?_
  exact h.checkedKey rfl

/-- The keys of the negotiation of CHAP stay in bounds. -/
theorem checkedChapPhaseKey_eq (h : StandsAt data ptr s) (c : Context) :
    checkedChapPhaseKey data ptr s c = .ok (chapPhaseKey c s) := by
  unfold checkedChapPhaseKey chapPhaseKey
  extract_lets c₁ c₂
  refine h.checkedKey_bind c₁ rfl ?_ ?_
  · show (if hasKey s "AuthMethod=" = true then
      if hasValue s "AuthMethod=" "CHAP" = true then _ else c else c) = c₁
    cases hkey : hasKey s "AuthMethod=" <;> cases hvalue : hasValue s "AuthMethod=" "CHAP" <;>
      simp [c₁, hkey, hvalue]
  refine h.checkedKey_bind c₂ rfl rfl ?_
  exact h.checkedKey rfl

/-- A challenge that is not too long fits into its field with a NUL. -/
theorem checkedChapCKey_eq (h : StandsAt data ptr s) (hlen : chapCTooLong s = false)
    (c : Context) : checkedChapCKey data ptr s c = .ok (chapCKey c s) := by
  unfold checkedChapCKey chapCKey
  cases hkey : hasKey s "CHAP_C=0x" with
  | false =>
    unfold Libiscsi.checkedKey
    rw [hkey]
    rfl
  | true =>
    rw [chapCTooLong, hkey, Bool.true_and, decide_eq_false_iff_not, Nat.not_lt] at hlen
    have htake : (s.drop 9).take (s.length - 9) = s.drop 9 :=
      List.take_of_length_le (List.length_drop ..).le
    have hfits : fieldAccess (maxChapCLength + 1)
        (min (s.drop 9).length (s.length - 9) + 1) = .ok () :=
      if_pos (by omega)
    rw [h.checkedKey (a := { c with chapC := s.drop 9, secnegPhase := .sendResponse })
      (by rw [hfits, Outcome.ok_bind, htake]), hkey]

/-- The name of the target stays in bounds. -/
theorem checkedChapNKey_eq (h : StandsAt data ptr s) (st : LoginParse) :
    checkedChapNKey data ptr s st = .ok (chapNKey st s) :=
  h.checkedKey rfl

/-- The response of the target, which has the length that is read, stays in bounds. -/
theorem checkedChapRKey_eq (h : StandsAt data ptr s) (st : LoginParse) :
    checkedChapRKey data ptr s st = .ok (chapRKey st s) := by
  unfold checkedChapRKey chapRKey
  dsimp only
  split
  · split
    · rfl
    rename_i hlen
    have hread : (List.range st.c.chapAuth.responseSize).mapM (fun i => do
        let hi ← readByte data (ptr + (9 + 2 * i))
        let lo ← readByte data (ptr + (9 + 2 * i + 1))
        .ok (hexByte hi lo)) = .ok (receivedChapR s st.c.chapAuth.responseSize) := by
      refine Outcome.mapM_eq_ok fun i hi => ?_
      have hi := List.mem_range.1 hi
      rw [h.readByte (by omega), Outcome.ok_bind, h.readByte (by omega), Outcome.ok_bind]
    have hfits : fieldAccess maxChapRSize st.c.chapAuth.responseSize = .ok () := by
      refine if_pos ?_
      cases st.c.chapAuth <;> decide
    rw [hread, Outcome.ok_bind, hfits, Outcome.ok_bind]
  · rfl

/-- A string stays in bounds. -/
theorem checkedLoginString_eq (h : StandsAt data ptr s) (st : LoginParse) :
    checkedLoginString data ptr st = .ok (loginString st s) := by
  unfold checkedLoginString loginString loginChapKey
  rw [h.stringArg (Nat.zero_le _), Outcome.ok_bind, List.drop_zero, checkedLoginKey_eq h,
    Outcome.ok_bind, checkedChapPhaseKey_eq h, Outcome.ok_bind]
  dsimp only
  cases hlong : chapCTooLong s with
  | true => rfl
  | false =>
    rw [if_neg Bool.false_ne_true, if_neg Bool.false_ne_true, checkedChapCKey_eq h hlong,
      Outcome.ok_bind, checkedChapNKey_eq h, Outcome.ok_bind]
    rcases chapNKey { st with c := chapCKey (chapPhaseKey (loginKey st.c s) s) s } s with c | st'
    · rfl
    · exact checkedChapRKey_eq h st'

end

/-! ## The loop over the strings -/

/-- What the loop over the strings of a segment returns. -/
def parseStrings (parsed : List CStr × Bool) (st : LoginParse) :
    Except (Context × Int) LoginParse :=
  match parsed.1.foldlM loginString st with
  | .error c => .error (c, 0)
  | .ok st => if parsed.2 then .error (st.c, -1) else .ok st

/-- The loop stays in bounds, from any string on. -/
theorem checkedStrings_append : ∀ {fuel : Nat} (rest pre : List UInt8) (st : LoginParse),
    rest.length < fuel → checkedStrings (pre ++ rest) fuel pre.length rest.length st =
      .ok (parseStrings (loginStrings fuel rest) st)
  | 0, _, _, _, hfuel => absurd hfuel (Nat.not_lt_zero _)
  | fuel + 1, rest, pre, st, hfuel => by
    rw [checkedStrings, loginStrings]
    by_cases hnil : rest = []
    · rw [if_pos (List.length_eq_zero_iff.2 hnil), if_pos hnil]
      rfl
    rw [if_neg (List.length_eq_zero_iff.not.2 hnil), if_neg hnil, memchr_append, Outcome.ok_bind]
    dsimp only
    by_cases hend : (first rest).length = rest.length
    · rw [if_pos hend, if_pos hend]
      rfl
    rw [if_neg hend, if_neg hend]
    dsimp only
    rw [Nat.add_sub_cancel_left]
    by_cases hempty : first rest = []
    · rw [if_pos (List.length_eq_zero_iff.2 hempty), if_pos hempty]
      rfl
    rw [if_neg (List.length_eq_zero_iff.not.2 hempty), if_neg hempty]
    have hrest := eq_first_append hend
    set s := first rest with hs
    set rest' := rest.drop (s.length + 1) with hrest'
    have hsplit : pre ++ rest = pre ++ s ++ 0 :: rest' := by
      rw [List.append_assoc, ← hrest]
    have hstands : StandsAt (pre ++ rest) pre.length s :=
      ⟨hs ▸ zero_notMem_first rest, pre, rest', hsplit, rfl⟩
    rw [checkedLoginString_eq hstands, Outcome.ok_bind]
    unfold parseStrings
    dsimp only
    rw [List.foldlM_cons]
    rcases loginString st s with c | st'
    · rfl
    have hlen : rest.length = s.length + (rest'.length + 1) := by
      conv_lhs => rw [hrest]
      rw [List.length_append, List.length_cons]
    have hfuel' : rest'.length < fuel := by omega
    have ih := checkedStrings_append rest' (pre ++ s ++ [0]) st' hfuel'
    have hsplit' : pre ++ s ++ [0] ++ rest' = pre ++ rest := by
      rw [List.append_assoc _ [0], List.singleton_append, hsplit]
    have hpos : (pre ++ s ++ [0]).length = pre.length + (s.length + 1) := by
      simp only [List.length_append, List.length_singleton, Nat.add_assoc]
    rw [hsplit', hpos] at ih
    dsimp only
    rw [show rest.length - (s.length + 1) = rest'.length by omega, ih]
    rfl

/-- The loop of `iscsi_process_login_reply` over the data segment, with its checks. -/
def checkedLogin (c : Context) (inPdu : InPdu) :
    Except LoginFault (Except (Context × Int) LoginParse) :=
  checkedStrings inPdu.payload (inPdu.payload.length + 1) 0 inPdu.payload.length
    { c, mustHaveChapN := mustAuthenticate c inPdu, mustHaveChapR := mustAuthenticate c inPdu }

/-- **The loop over the strings ends, and no access is out of bounds.** -/
theorem checkedLogin_eq (c : Context) (inPdu : InPdu) :
    checkedLogin c inPdu = .ok (parseLogin c inPdu) :=
  checkedStrings_append inPdu.payload [] _ (Nat.lt_succ_self _)

end Libiscsi
