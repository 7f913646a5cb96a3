import Libiscsi.Decode
import Libiscsi.UnmarshallCorrect

/-!
# Lists that report what was received

REPORT LUNS, GET LBA STATUS and READ KEYS return lists of entries of one size, which begin at byte
8. A list has the entries that are whole in the length that the data declares and in the data, and
its header may be missing. READ KEYS always has these entries; the other two have them under
conditions on the length (`countedLists_iff`).
-/

namespace Libiscsi.Decode

open Bounded Unmarshall Outcome

/-! ## The entries that were received -/

/-- The number of entries of `size` bytes that are whole before the declared end and in the data. -/
def received (d : List UInt8) (size declaredEnd : Nat) : Nat :=
  (min declaredEnd d.length - 8) / size

/-- The slices of the entries. -/
def slices (d : List UInt8) (size count : Nat) : List (List UInt8) :=
  (List.range count).map fun i => (d.drop (8 + size * i)).take size

/-- A list that is returned has `count` entries, the decoded slices, in an object that has room for
them and no others; there is none only without a header. -/
structure Reported {α β : Type} (d : List UInt8) (run : Except Bounded.Fault (Option α))
    (num : α → Nat) (entries : α → List β) (allocated : α → Nat) (size fixed room : Nat)
    (decode : List UInt8 → β) (declaredEnd : Nat) : Prop where
  ran : ∃ r, run = .ok r
  null : run = .ok none → d.length < 8
  num_eq : ∀ list, run = .ok (some list) → num list = received d size declaredEnd
  entries_eq : ∀ list, run = .ok (some list) →
    entries list = (slices d size (received d size declaredEnd)).map decode
  allocated_eq : ∀ list, run = .ok (some list) →
    (allocated list - fixed) / room = received d size declaredEnd

/-- The descriptor of GET LBA STATUS that the bytes are. -/
def lbaStatusOf (slice : List UInt8) : LbaStatusDescriptor where
  lba := uint slice 8 0
  numBlocks := uint slice 4 8
  provisioning := uint slice 1 12 &&& 0x0f

section
variable {α β : Type} {d : List UInt8} {run : Except Bounded.Fault (Option α)} {num : α → Nat}
  {entries : α → List β} {allocated : α → Nat} {size fixed room : Nat} {decode : List UInt8 → β}
  {declaredEnd : Nat} {list : α} {e : Bounded.Fault}

theorem Reported.of_some (hrun : run = .ok (some list))
    (hnum : num list = received d size declaredEnd)
    (hentries : entries list = (slices d size (received d size declaredEnd)).map decode)
    (hallocated : (allocated list - fixed) / room = received d size declaredEnd) :
    Reported d run num entries allocated size fixed room decode declaredEnd where
  ran := ⟨_, hrun⟩
  null hnull := by cases hrun.symm.trans hnull
  num_eq l hl := by
    cases hrun.symm.trans hl
    exact hnum
  entries_eq l hl := by
    cases hrun.symm.trans hl
    exact hentries
  allocated_eq l hl := by
    cases hrun.symm.trans hl
    exact hallocated

theorem Reported.of_none (hrun : run = .ok none) (hshort : d.length < 8) :
    Reported d run num entries allocated size fixed room decode declaredEnd where
  ran := ⟨_, hrun⟩
  null _ := hshort
  num_eq l hl := by cases hrun.symm.trans hl
  entries_eq l hl := by cases hrun.symm.trans hl
  allocated_eq l hl := by cases hrun.symm.trans hl

theorem not_reported_of_error (hrun : run = .error e) :
    ¬Reported d run num entries allocated size fixed room decode declaredEnd := by
  intro h
  obtain ⟨r, hr⟩ := h.ran
  cases hrun.symm.trans hr

end

section
variable (d : List UInt8)

/-- REPORT LUNS reports what was received. -/
def LunsReported : Prop :=
  Reported d (scsiReportlunsDatainUnmarshall d) ReportlunsList.num ReportlunsList.luns
    ReportlunsList.allocated 8 4 2 (fun slice => uint slice 2 0) (8 + taskGetUint d 4 0)

/-- GET LBA STATUS reports what was received. -/
def LbaStatusReported : Prop :=
  Reported d (getLbaStatus d) GetLbaStatus.numDescriptors GetLbaStatus.descriptors
    GetLbaStatus.allocated 16 0 16 lbaStatusOf (4 + taskGetUint d 4 0)

/-- READ KEYS reports what was received. -/
def KeysReported : Prop :=
  Reported d (readKeys d) ReadKeys.numKeys ReadKeys.keys ReadKeys.allocated 8 16 8
    (fun slice => uint slice 8 0) (8 + taskGetUint d 4 4)

/-- The lengths for which REPORT LUNS reports what was received. -/
def LunsCounted : Prop :=
  d.length < 4 ∨ 8 ≤ d.length ∧ taskGetUint d 4 0 < 2 ^ 31 - 8 ∨
    d.length < 8 ∧ 2 ^ 31 - 8 ≤ taskGetUint d 4 0 ∧ taskGetUint d 4 0 < 2 ^ 32 - 55

/-- The lengths for which GET LBA STATUS reports what was received. The number of bytes behind the
length is divided by 16, although four of them are reserved. -/
def LbaStatusCounted : Prop :=
  if taskGetUint d 4 0 < 2 ^ 31 then
    min (taskGetUint d 4 0) (d.length - 4) < 16 ∨
      4 ≤ min (taskGetUint d 4 0) (d.length - 4) % 16
  else d.length < 8 ∨ 2 ^ 32 - 16 < taskGetUint d 4 0 ∧ d.length < 24

end

section
variable {d : List UInt8}

/-- The slices of entries that are whole, decoded. -/
theorem map_slices {β : Type} {size count : Nat} {decode : List UInt8 → β} {entry : Nat → β}
    (h : ∀ i < count, decode ((d.drop (8 + size * i)).take size) = entry i) :
    (slices d size count).map decode = (List.range count).map entry := by
  rw [slices, List.map_map]
  refine List.map_congr_left fun i hi => ?_
  exact h i (List.mem_range.1 hi)

/-- An entry that is received is whole. -/
theorem lt_received {size declaredEnd i : Nat} (h : i < received d size declaredEnd) :
    8 + size * i + size ≤ d.length := by
  unfold received at h
  have hmul : size * (i + 1) ≤ min declaredEnd d.length - 8 :=
    (Nat.mul_le_mul_left size h).trans (Nat.mul_div_le _ _)
  rw [Nat.mul_succ] at hmul
  by_cases hpos : size = 0
  · subst hpos
    rw [Nat.div_zero] at h
    omega
  · omega

/-! ## READ KEYS -/

theorem keysReported (hd : d.length < 2 ^ 31) : KeysReported d := by
  by_cases hshort : d.length < 8
  · exact .of_none (if_pos hshort) hshort
  · have hcount : min (taskGetUint d 4 4) (d.length - 8) / 8 =
        received d 8 (8 + taskGetUint d 4 4) := by
      unfold received
      congr 1
      omega
    have hrun : readKeys d = .ok (some
        { allocated := 16 + min (taskGetUint d 4 4) (d.length - 8)
          prgeneration := taskGetUint d 4 0, additionalLength := taskGetUint d 4 4
          numKeys := received d 8 (8 + taskGetUint d 4 4)
          keys := (List.range (received d 8 (8 + taskGetUint d 4 4))).map fun i =>
            uint d 8 (8 + i * 8) }) := by
      unfold readKeys
      rw [if_neg hshort]
      simp only
      rw [scsiMalloc_of_nonneg (by omega) (by omega), within_of_le (by omega), ok_bind, hcount,
        mapM_eq_ok (g := fun i => uint d 8 (8 + i * 8)), ok_bind]
      · congr 3
      · intro i hi
        have hi := List.mem_range.1 hi
        have hwhole := lt_received hi
        rw [← hcount] at hi
        rw [within_of_le (by omega), ok_bind, number_of_lt (by omega)]
    refine .of_some hrun rfl ?_ ?_
    · refine (map_slices fun i hi => ?_).symm
      rw [uint_slice (by omega) (lt_received hi)]
      congr 1
      omega
    · rw [← hcount]
      simp

/-! ## REPORT LUNS -/

/-- A number of LUNs that is negative, but not by much. -/
theorem luns_negative {n : Int} {k : Nat → Except Bounded.Fault (Option ReportlunsList)}
    (hn : -6 ≤ n) (hlt : n < 0) :
    scsiMalloc (4 + 2 * n) (fun list => within list 0 4 >>= fun _ => k list) =
      .error .writeOutside := by
  by_cases hneg : 4 + 2 * n < 0
  · exact scsiMalloc_small (by omega) hneg
  · rw [scsiMalloc_of_nonneg (by omega) (by omega), within, if_neg (by omega)]
    rfl

/-- The LUNs, if there are as many as were received. -/
theorem luns_of_count {listSize : Int} (hd : d.length < 2 ^ 31)
    (hsize : listSize = toInt ((taskGetUint d 4 0 + 8) % 2 ^ 32))
    (h8 : 8 ≤ d.length) (hlen : taskGetUint d 4 0 < 2 ^ 31 - 8) : LunsReported d := by
  have hmin : (if listSize > d.length then (d.length : Int) else listSize) =
      (min (taskGetUint d 4 0 + 8) d.length : Nat) := by
    have htoInt : toInt (taskGetUint d 4 0 + 8) = (taskGetUint d 4 0 + 8 : Nat) :=
      if_pos (by omega)
    rw [hsize, Nat.mod_eq_of_lt (by omega), htoInt]
    split <;> omega
  have hcount : ((min (taskGetUint d 4 0 + 8) d.length : Nat) : Int).tdiv 8 - 1 =
      (received d 8 (8 + taskGetUint d 4 0) : Nat) := by
    unfold received
    rw [Int.tdiv_eq_ediv_of_nonneg (by omega)]
    omega
  have hle : received d 8 (8 + taskGetUint d 4 0) < 2 ^ 28 := by
    unfold received
    omega
  have hrun : scsiReportlunsDatainUnmarshall d = .ok (some
      { allocated := 4 + 2 * received d 8 (8 + taskGetUint d 4 0)
        num := received d 8 (8 + taskGetUint d 4 0)
        luns := (List.range (received d 8 (8 + taskGetUint d 4 0))).map fun i =>
          uint d 2 (i * 8 + 8) }) := by
    unfold scsiReportlunsDatainUnmarshall
    rw [if_neg (by omega)]
    simp only
    rw [← hsize, hmin, hcount, scsiMalloc_of_nonneg (by omega) (by omega),
      within_of_le (by omega), ok_bind, mapM_eq_ok (g := fun i => uint d 2 (i * 8 + 8)), ok_bind]
    · congr 3
      omega
    · intro i hi
      have hi := List.mem_range.1 hi
      have hwhole := lt_received hi
      rw [within_of_le (by omega), ok_bind, number_of_lt (by omega)]
  refine .of_some hrun rfl ?_ ?_
  · refine (map_slices fun i hi => ?_).symm
    rw [uint_slice (by omega) (lt_received hi)]
    congr 1
    omega
  · simp

/-- REPORT LUNS, by the size that the code computes from the length and the data. -/
theorem lunsReported_iff (hd : d.length < 2 ^ 31) : LunsReported d ↔ LunsCounted d := by
  have hlt : taskGetUint d 4 0 < 2 ^ 32 := (taskGetUint_lt d 4 0).trans_eq (by norm_num)
  by_cases h4 : d.length < 4
  · exact iff_of_true (.of_none (if_pos h4) (by omega)) (.inl h4)
  obtain ⟨listSize, hsize⟩ : ∃ s, s = toInt ((taskGetUint d 4 0 + 8) % 2 ^ 32) := ⟨_, rfl⟩
  by_cases hpos : 8 ≤ d.length ∧ taskGetUint d 4 0 < 2 ^ 31 - 8
  · exact iff_of_true (luns_of_count hd hsize hpos.1 hpos.2) (.inr (.inl hpos))
  obtain ⟨m, hm⟩ : ∃ m, m = (if listSize > d.length then (d.length : Int) else listSize) :=
    ⟨_, rfl⟩
  obtain ⟨k, hrun⟩ : ∃ k : Nat → Except Bounded.Fault (Option ReportlunsList),
      scsiReportlunsDatainUnmarshall d =
        scsiMalloc (4 + 2 * (m.tdiv 8 - 1)) fun list => within list 0 4 >>= fun _ => k list := by
    rw [hm, hsize]
    exact ⟨_, if_neg h4⟩
  have hvalue : listSize = taskGetUint d 4 0 + 8 ∨ listSize = taskGetUint d 4 0 + 8 - 2 ^ 32 := by
    rw [hsize, toInt]
    split <;> omega
  have htoInt := toInt_bounds (Nat.mod_lt (taskGetUint d 4 0 + 8) (by norm_num : 0 < 2 ^ 32))
  rw [← hsize] at htoInt
  have hmin : m ≤ d.length ∧ m ≤ listSize ∧ (m = d.length ∨ m = listSize) := by
    rw [hm]
    split <;> omega
  have hdiv : 0 ≤ m ∧ m.tdiv 8 = m / 8 ∨ m < 0 ∧ m.tdiv 8 = -(-m / 8) := tdiv_cases m 8
  by_cases hnull : 2 ^ 31 - 8 ≤ taskGetUint d 4 0 ∧ taskGetUint d 4 0 < 2 ^ 32 - 55
  · -- the size is negative, and too large for `malloc`
    have hnone := hrun.trans (scsiMalloc_null (by omega) (by omega))
    constructor
    · intro h
      have hshort := h.null hnone
      exact .inr (.inr ⟨hshort, hnull⟩)
    · rintro (h | h | h)
      · exact absurd h h4
      · exact absurd h hpos
      · exact .of_none hnone h.1
  · -- the number of LUNs is negative, and the object is too small
    have herror := hrun.trans (luns_negative (by omega) (by omega))
    refine iff_of_false (not_reported_of_error herror) ?_
    rintro (h | h | h)
    · exact h4 h
    · exact hpos h
    · exact hnull h.2

/-! ## GET LBA STATUS -/

/-- The turn `i`, whatever there is in the data. -/
theorem lbaStatusDescriptor_eq {i : Nat} (hi : 8 + i * 16 + 12 < 2 ^ 31) :
    lbaStatusDescriptor d i = .ok
      { lba := uint d 4 (8 + i * 16 + 0) * 2 ^ 32 + uint d 4 (8 + i * 16 + 4)
        numBlocks := uint d 4 (8 + i * 16 + 8)
        provisioning := uint d 1 (8 + i * 16 + 12) &&& 0x0f } := by
  unfold lbaStatusDescriptor
  rw [number_of_lt (by omega), number_of_lt (by omega), number_of_lt (by omega), number_of_lt hi,
    ok_bind, ok_bind, ok_bind, ok_bind]

/-- The entry that is received is decoded. -/
theorem lbaStatusOf_slice {i : Nat} (h : 8 + 16 * i + 16 ≤ d.length) :
    lbaStatusOf ((d.drop (8 + 16 * i)).take 16) =
      { lba := uint d 4 (8 + i * 16 + 0) * 2 ^ 32 + uint d 4 (8 + i * 16 + 4)
        numBlocks := uint d 4 (8 + i * 16 + 8)
        provisioning := uint d 1 (8 + i * 16 + 12) &&& 0x0f } := by
  have hlba := @uint_add d 4 (8 + 16 * i + 0) 4 (by omega)
  unfold lbaStatusOf
  rw [uint_slice (by omega) h, uint_slice (by omega) h, uint_slice (by omega) h, hlba,
    Nat.mul_comm 16 i]
  rfl

/-- A number of descriptors that is not negative: the list is right if the number is. -/
theorem lbaStatus_nonneg {n : Nat} (hd : d.length < 2 ^ 31)
    (hn : (if toInt (taskGetUint d 4 0) > (d.length : Int) - 4 then (d.length : Int) - 4
      else toInt (taskGetUint d 4 0)).tdiv 16 = n) (hle : n * 16 ≤ d.length - 4) :
    LbaStatusReported d ↔ n = received d 16 (4 + taskGetUint d 4 0) := by
  obtain ⟨entry, hentry⟩ : ∃ entry : Nat → LbaStatusDescriptor, entry = fun i =>
      { lba := uint d 4 (8 + i * 16 + 0) * 2 ^ 32 + uint d 4 (8 + i * 16 + 4)
        numBlocks := uint d 4 (8 + i * 16 + 8)
        provisioning := uint d 1 (8 + i * 16 + 12) &&& 0x0f } := ⟨_, rfl⟩
  have hrun : getLbaStatus d = .ok (some
      { allocated := 16 * n, numDescriptors := n, descriptors := (List.range n).map entry }) := by
    unfold getLbaStatus
    simp only
    rw [hn, scsiMalloc_of_nonneg (by omega) (by omega), mapM_eq_ok (g := entry), ok_bind]
    · congr 3
      omega
    · intro i hi
      have hi := List.mem_range.1 hi
      rw [within_of_le (by omega), ok_bind, lbaStatusDescriptor_eq (by omega), hentry]
  constructor
  · intro h
    exact h.num_eq _ hrun
  · intro hcount
    refine .of_some hrun hcount ?_ ?_
    · rw [← hcount]
      refine (map_slices fun i hi => ?_).symm
      rw [hcount] at hi
      rw [lbaStatusOf_slice (lt_received hi), hentry]
    · rw [← hcount]
      simp

/-- GET LBA STATUS, by the number of descriptors that the code computes. -/
theorem lbaStatusReported_iff (hd : d.length < 2 ^ 31) :
    LbaStatusReported d ↔ LbaStatusCounted d := by
  have hlt : taskGetUint d 4 0 < 2 ^ 32 := (taskGetUint_lt d 4 0).trans_eq (by norm_num)
  obtain ⟨m, hm⟩ : ∃ m, m = (if toInt (taskGetUint d 4 0) > (d.length : Int) - 4 then
      (d.length : Int) - 4 else toInt (taskGetUint d 4 0)) := ⟨_, rfl⟩
  have hshort : d.length < 4 → taskGetUint d 4 0 = 0 := fun h => taskGetUint_short (by omega)
  have hnonneg : ∀ {n : Nat}, m.tdiv 16 = n → n * 16 ≤ d.length - 4 →
      (LbaStatusReported d ↔ n = received d 16 (4 + taskGetUint d 4 0)) := by
    intro n hn hle
    rw [hm] at hn
    exact lbaStatus_nonneg hd hn hle
  have hdiv : 0 ≤ m ∧ m.tdiv 16 = m / 16 ∨ m < 0 ∧ m.tdiv 16 = -(-m / 16) := tdiv_cases m 16
  unfold LbaStatusCounted
  by_cases hpos : taskGetUint d 4 0 < 2 ^ 31
  · have htoInt : toInt (taskGetUint d 4 0) = taskGetUint d 4 0 := if_pos hpos
    rw [if_pos hpos]
    rw [htoInt] at hm
    by_cases h4 : d.length < 4
    · have hzero := hshort h4
      have hm' : m = (d.length : Int) - 4 := by
        rw [hm, if_pos (by omega)]
      rw [hnonneg (n := 0) (by omega) (by omega)]
      unfold received
      omega
    · have hm' : m = (min (taskGetUint d 4 0) (d.length - 4) : Nat) := by
        rw [hm]
        split <;> omega
      rw [hnonneg (n := min (taskGetUint d 4 0) (d.length - 4) / 16) (by omega) (by omega)]
      unfold received
      omega
  · have htoInt : toInt (taskGetUint d 4 0) = (taskGetUint d 4 0 : Int) - 2 ^ 32 := if_neg hpos
    have hm' : m = (taskGetUint d 4 0 : Int) - 2 ^ 32 := by
      rw [hm, htoInt, if_neg (by omega)]
    rw [if_neg hpos]
    by_cases hnear : 2 ^ 32 - 16 < taskGetUint d 4 0
    · rw [hnonneg (n := 0) (by omega) (by omega)]
      unfold received
      omega
    · have hnone : getLbaStatus d = .ok none := by
        unfold getLbaStatus
        simp only
        rw [← hm]
        exact scsiMalloc_null (by omega) (by omega)
      constructor
      · intro h
        exact .inl (h.null hnone)
      · rintro (h | h)
        · exact .of_none hnone h
        · exact absurd h.1 hnear

end

/-! ## The three lists -/

/-- **Which lists report what was received.** -/
theorem countedLists_iff (d : Unmarshall.Datain) :
    (LunsReported d.data ↔ LunsCounted d.data) ∧
      (LbaStatusReported d.data ↔ LbaStatusCounted d.data) ∧ KeysReported d.data :=
  ⟨lunsReported_iff d.size_lt, lbaStatusReported_iff d.size_lt, keysReported d.size_lt⟩

/-- Data that ends within the header of REPORT LUNS: the number of LUNs is -1. -/
theorem luns_wrapped :
    ¬∀ d : Unmarshall.Datain,
      LunsReported d.data ∧ LbaStatusReported d.data ∧ KeysReported d.data := by
  intro h
  obtain ⟨hluns, -⟩ := h ⟨[0, 0, 0, 0], by decide⟩
  have hcounted := (lunsReported_iff (by decide)).1 hluns
  unfold LunsCounted at hcounted
  revert hcounted
  decide

end Libiscsi.Decode
