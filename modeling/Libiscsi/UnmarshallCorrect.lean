import Libiscsi.Unmarshall
import Mathlib.Tactic.Ring
import Mathlib.Tactic.NormNum
import Mathlib.Tactic.Set

/-!
# Which data is read within its bounds

The data that `scsi_datain_unmarshall` reads, and fills structures from, without a fault and with
no field set from bytes that are not there, is the data that `Fits` (`unmarshall_iff`). What is read
with a check is always zero where there is no data; what is copied from the data is not checked.
-/

namespace Libiscsi.Unmarshall

open Bounded

section
variable {d : List UInt8} {c : Prop}

/-! ## Numbers -/

theorem foldl_lt (l : List UInt8) :
    ∀ v, l.foldl (fun v b => v * 256 + b.toNat) v < (v + 1) * 256 ^ l.length := by
  induction l with
  | nil => simp
  | cons b l ih =>
    intro v
    have hb : b.toNat < 256 := b.toNat_lt
    calc (b :: l).foldl (fun v b => v * 256 + b.toNat) v
        < (v * 256 + b.toNat + 1) * 256 ^ l.length := ih _
      _ ≤ ((v + 1) * 256) * 256 ^ l.length := Nat.mul_le_mul_right _ (by omega)
      _ = (v + 1) * 256 ^ (b :: l).length := by rw [List.length_cons, pow_succ]; ring

/-- A number is as small as its bytes allow. -/
theorem taskGetUint_lt (d : List UInt8) (width off : Nat) :
    taskGetUint d width off < 256 ^ width := by
  unfold taskGetUint uint
  split
  · have hlt := foldl_lt ((d.drop off).take width) 0
    rw [Nat.zero_add, one_mul] at hlt
    refine hlt.trans_le (Nat.pow_le_pow_right (by norm_num) ?_)
    exact List.length_take_le ..
  · exact Nat.pow_pos (by norm_num)

/-- A number whose bytes are not all there is zero. -/
theorem taskGetUint_short {width off : Nat} (h : d.length < off + width) :
    taskGetUint d width off = 0 := if_neg (by omega)

theorem toInt_bounds {v : Nat} (h : v < 2 ^ 32) : -2 ^ 31 ≤ toInt v ∧ toInt v < 2 ^ 31 := by
  unfold toInt
  split <;> omega

/-- Division rounds towards zero. -/
theorem tdiv_cases (a : Int) (k : Nat) :
    0 ≤ a ∧ a.tdiv k = a / k ∨ a < 0 ∧ a.tdiv k = -(-a / k) := by
  by_cases h : 0 ≤ a
  · exact .inl ⟨h, Int.tdiv_eq_ediv_of_nonneg h⟩
  · refine .inr ⟨by omega, ?_⟩
    rw [← Int.tdiv_eq_ediv_of_nonneg (by omega : 0 ≤ -a), Int.neg_tdiv, neg_neg]

/-! ## Allocating -/

theorem decides_ite {p : Prop} [Decidable p] {m n : Parser Bool} {c c' : Prop}
    (hm : p → Decides d m c) (hn : ¬p → Decides d n c') :
    Decides d (if p then m else n) (if p then c else c') := by
  by_cases h : p
  · rw [if_pos h, if_pos h]
    exact hm h
  · rw [if_neg h, if_neg h]
    exact hn h

/-- An object of a size that `malloc` accepts. -/
theorem decides_scsiMalloc {n : Int} {k : Nat → Parser Bool} (hn : 0 ≤ n) (hle : n < 2 ^ 62)
    (h : Decides d (k n.toNat) c) : Decides d (scsiMalloc n k) c := by
  unfold scsiMalloc
  simp only
  have htotal : ((8 + n) % 2 ^ 64).toNat = n.toNat + 8 := by omega
  rw [htotal, if_neg (by unfold ptrdiffMax; omega), Nat.add_sub_cancel]
  exact (Decides.next (yields_store (by omega)) h).creating

/-- A size that is negative is too large for `malloc`. -/
theorem decides_scsiMalloc_null {n : Int} {k : Nat → Parser Bool} (hn : n < -8)
    (hle : -2 ^ 62 ≤ n) :
    Decides d (scsiMalloc n k) True := by
  unfold scsiMalloc
  simp only
  rw [if_pos (by unfold ptrdiffMax; omega)]
  exact .ret d false

/-- A size that leaves no room for what is written first. -/
theorem decides_scsiMalloc_small {n : Int} {k : Nat → Parser Bool} {len : Nat} (hn : -8 ≤ n)
    (hlt : n < len) (hlen : len ≤ 8) :
    Decides d (scsiMalloc n fun size => store size 0 len >>= fun _ => k size) False := by
  unfold scsiMalloc
  simp only
  have htotal : ((8 + n) % 2 ^ 64).toNat = (8 + n).toNat := by omega
  rw [htotal, if_neg (by unfold ptrdiffMax; omega)]
  refine Decides.creating ?_
  by_cases h8 : 8 ≤ (8 + n).toNat
  · exact .next (yields_store (by omega)) (.never (fails_store (by omega)))
  · exact .never (fails_store (by omega))

/-! ## Pages and replies that are always read within their bounds -/

theorem decides_readcapacity10 : Decides d (scsiReadcapacity10DatainUnmarshall d) True := by
  unfold scsiReadcapacity10DatainUnmarshall
  split
  · exact .ret d false
  · exact (Decides.next (yields_setFields (by decide)) (.ret d true)).creating

theorem decides_blockDeviceCharacteristics :
    Decides d (scsiInquiryUnmarshallBlockDeviceCharacteristics d) True :=
  (Decides.next (yields_setFields (by decide))
    (.next (yields_setFields (by decide)) (.ret d true))).creating

theorem decides_logicalBlockProvisioning :
    Decides d (scsiInquiryUnmarshallLogicalBlockProvisioning d) True :=
  (Decides.next (yields_setFields (by decide))
    (.next (yields_setFields (by decide)) (.ret d true))).creating

/-- A field that is read as two numbers is good unless the data ends between them. -/
theorem good_twoNumbers {off : Nat} :
    (twoNumbers d off).Good d ↔ off + 8 ≤ d.length ∨ taskGetUint d 4 off = 0 := by
  unfold twoNumbers Setting.Good
  simp only
  by_cases h : off + 8 ≤ d.length
  · exact iff_of_true (fun hlt => absurd h (by omega)) (.inl h)
  · rw [taskGetUint_short (by omega : d.length < off + 4 + 4)]
    have hnot : ¬off + 8 ≤ d.length := h
    constructor
    · intro hz
      have hz := hz (by omega)
      omega
    · rintro (hle | hz) _
      · exact absurd hle hnot
      · omega

/-! ## Lists that are read with a check -/

theorem readtocDesc_bounds (format : UInt8) :
    (readtocDesc format).2 ≤ 11 ∧ ∀ f ∈ (readtocDesc format).1, f.off ≤ 10 := by
  unfold readtocDesc
  split
  · decide
  split
  · decide
  split <;> decide

theorem decides_readtoc {cdb : List UInt8} :
    Decides d (scsiReadtocDatainUnmarshall cdb d) True := by
  unfold scsiReadtocDatainUnmarshall
  split
  · exact .ret d false
  simp only
  split
  · exact .ret d false
  have hlen : (taskGetUint d 2 0 + 2) % 2 ^ 16 < 2 ^ 16 := Nat.mod_lt _ (by norm_num)
  have hbounds := readtocDesc_bounds (cdb.getD 2 0 &&& 0xf)
  rcases hdesc : readtocDesc (cdb.getD 2 0 &&& 0xf) with ⟨fields, size⟩
  rw [hdesc] at hbounds
  obtain ⟨hsize, hoff⟩ := hbounds
  have hdiv := tdiv_cases (((taskGetUint d 2 0 + 2) % 2 ^ 16 : Nat) - 2 - 4 : Int) 8
  simp only [Nat.cast_ofNat] at hdiv hsize hoff ⊢
  set n : Int := (((taskGetUint d 2 0 + 2) % 2 ^ 16 : Nat) - 2 - 4 : Int).tdiv 8 with hn
  have hn₀ : 0 ≤ n ∧ n < 2 ^ 13 := by omega
  refine decides_scsiMalloc (by omega) (by omega) (.next (yields_store (by omega))
    (.next (yields_setFields (by decide)) (.next (yields_loop fun i hi => ?_) (.ret d true))))
  refine (yields_store (by omega)).bind (yields_setFields fun f hf => ?_)
  have hfoff := hoff f hf
  have hmul : size * i ≤ 11 * i := Nat.mul_le_mul_right i hsize
  omega

theorem decides_getLbaStatus (hd : d.length < 2 ^ 31) : Decides d (getLbaStatus d) True := by
  unfold getLbaStatus
  simp only
  have hlt := toInt_bounds (taskGetUint_lt d 4 0)
  set len : Int := if toInt (taskGetUint d 4 0) > (d.length : Int) - 4 then (d.length : Int) - 4
    else toInt (taskGetUint d 4 0) with hlen
  have hle : len ≤ (d.length : Int) - 4 ∧ -2 ^ 31 ≤ len := by
    rw [hlen]
    split <;> omega
  have hdiv := tdiv_cases len 16
  simp only [Nat.cast_ofNat] at hdiv
  clear_value len
  refine Decides.creating ?_
  by_cases hneg : len.tdiv 16 < 0
  · exact decides_scsiMalloc_null (by omega) (by omega)
  · refine decides_scsiMalloc (by omega) (by omega)
      (.next (yields_loop fun i hi => ?_) (.ret d true))
    have hroom : 8 + i * 16 + 8 ≤ d.length := by omega
    refine (yields_store (by omega)).bind ((yields_set (good_twoNumbers.2 (.inl hroom))).bind ?_)
    refine yields_setFields fun f hf => ?_
    simp only [List.mem_cons, List.not_mem_nil, or_false] at hf
    rcases hf with rfl | rfl <;> simp only [field, masked] <;> omega

theorem decides_receivecopyresults {cdb : List UInt8} :
    Decides d (scsiReceivecopyresultsDatainUnmarshall cdb d) True := by
  unfold scsiReceivecopyresultsDatainUnmarshall
  simp only
  split
  · split
    · exact .ret d false
    · exact (Decides.next (yields_setFields (by decide)) (.ret d true)).creating
  split
  swap
  · exact .ret d false
  split
  · exact .ret d false
  have hlen : taskGetUint d 1 43 < 256 := taskGetUint_lt d 1 43
  refine decides_scsiMalloc (by omega) (by omega) (.next (yields_store (by omega))
    (.next (yields_setFields (by decide)) (.next (yields_loop fun i hi => ?_) (.ret d true))))
  refine (yields_store (by omega)).bind (yields_setFields fun f hf => ?_)
  obtain rfl := List.mem_singleton.1 hf
  simp only [field]
  omega

theorem decides_persistentreservein {cdb : List UInt8} (hd : d.length < 2 ^ 31) :
    Decides d (scsiPersistentreserveinDatainUnmarshall cdb d) True := by
  unfold scsiPersistentreserveinDatainUnmarshall
  simp only
  split
  · split
    · exact .ret d false
    refine decides_scsiMalloc (by omega) (by omega) (.next (yields_store (by omega))
      (.next (yields_setFields (by decide)) (.next (yields_loop fun i hi => ?_) (.ret d true))))
    refine (yields_store (by omega)).bind (yields_setFields fun f hf => ?_)
    obtain rfl := List.mem_singleton.1 hf
    simp only [field]
    omega
  split
  · refine (Decides.next (yields_setFields (by decide)) (.next (a := ()) ?_ (.ret d true))).creating
    split
    · exact yields_setFields (by decide)
    · exact .pure d ()
  split
  · exact (Decides.next (yields_setFields (by decide)) (.ret d true)).creating
  · exact .ret d false

/-! ## Lists of LUNs -/

/-- A LUN list that is allocated with room for its number: the length of the list is not one of
the last before 2³², and where not even the first LUN is there, it is one that is too large. -/
def LunsFit (d : List UInt8) : Prop :=
  d.length < 4 ∨ taskGetUint d 4 0 < 2 ^ 32 - 55 ∧
    (8 ≤ d.length ∨ 2 ^ 31 - 8 ≤ taskGetUint d 4 0)

theorem decides_reportluns (hd : d.length < 2 ^ 31) :
    Decides d (scsiReportlunsDatainUnmarshall d) (LunsFit d) := by
  unfold scsiReportlunsDatainUnmarshall
  by_cases hfour : d.length < 4
  · rw [if_pos hfour]
    exact (Decides.ret d false).congr (iff_of_true trivial (.inl hfour))
  rw [if_neg hfour]
  simp only
  have hlt : taskGetUint d 4 0 < 2 ^ 32 := taskGetUint_lt d 4 0
  set listSize : Int := if toInt ((taskGetUint d 4 0 + 8) % 2 ^ 32) > d.length then
    (d.length : Int) else toInt ((taskGetUint d 4 0 + 8) % 2 ^ 32) with hlist
  have hfit : LunsFit d ↔ ¬(-47 ≤ listSize ∧ listSize ≤ 7) := by
    rw [hlist]
    unfold LunsFit toInt
    split <;> split <;> omega
  have hle : listSize ≤ d.length ∧ -2 ^ 31 ≤ listSize := by
    have hbounds := toInt_bounds (Nat.mod_lt (taskGetUint d 4 0 + 8) (y := 2 ^ 32) (by norm_num))
    rw [hlist]
    split <;> omega
  have hdiv := tdiv_cases listSize 8
  simp only [Nat.cast_ofNat] at hdiv
  clear_value listSize
  by_cases hbad : -47 ≤ listSize ∧ listSize ≤ 7
  · exact (decides_scsiMalloc_small (by omega) (by omega) (by norm_num)).congr
      (iff_of_false id fun h => hfit.1 h hbad)
  refine Decides.congr ?_ (iff_of_true trivial (hfit.2 hbad))
  by_cases hneg : listSize < -47
  · exact decides_scsiMalloc_null (by omega) (by omega)
  · refine decides_scsiMalloc (by omega) (by omega)
      (.next (yields_store (by omega))
      (.next (yields_loop fun i hi => ?_) (.ret d true)))
    refine (yields_store (by omega)).bind (yields_setFields fun f hf => ?_)
    obtain rfl := List.mem_singleton.1 hf
    simp only [field]
    omega

/-! ## Pages whose text is copied -/

theorem decides_readcapacity16 :
    Decides d (readcapacity16 d) (8 ≤ d.length ∨ taskGetUint d 4 0 = 0) :=
  (Decides.last (yields_setFields (by decide))).creating.congr good_twoNumbers

theorem decides_blockLimits :
    Decides d (scsiInquiryUnmarshallBlockLimits d) (44 ≤ d.length ∨ taskGetUint d 4 36 = 0) :=
  (Decides.next (yields_setFields (by decide)) (.next (yields_setFields (by decide))
    (.last (yields_setFields (by decide))))).creating.congr good_twoNumbers

theorem decides_standard : Decides d (scsiInquiryUnmarshallStandard d) (36 ≤ d.length) := by
  refine (Decides.next (yields_setFields (by decide)) (.after yields_copy fails_copy fun _ =>
    .after yields_copy fails_copy fun _ => .after yields_copy fails_copy fun _ =>
    .next (yields_setFields (by decide)) (.next (yields_loop fun i hi => ?_)
      (.ret d true)))).creating.congr ?_
  · refine yields_setFields fun f hf => ?_
    obtain rfl := List.mem_singleton.1 hf
    simp only [field]
    omega
  · exact ⟨fun ⟨_, _, h, _⟩ => by omega, fun h => ⟨by omega, by omega, by omega, trivial⟩⟩

/-- What is copied from position 4 on. -/
def CopyFits (d : List UInt8) (len : Nat) : Prop := len = 0 ∨ 4 + len ≤ d.length

theorem decides_supportedPages :
    Decides d (scsiInquiryUnmarshallSupportedPages d) (CopyFits d (taskGetUint d 1 3)) := by
  have hlen : taskGetUint d 1 3 < 256 := taskGetUint_lt d 1 3
  refine (Decides.next (yields_setFields (by decide)) (.next (yields_setFields (by decide))
    (decides_scsiMalloc (by omega) (by omega) (.next (yields_store (by omega))
      (.after yields_copy fails_copy fun _ => .ret d true))))).creating.congr ?_
  exact iff_of_eq (and_true _)

theorem decides_unitSerialNumber :
    Decides d (scsiInquiryUnmarshallUnitSerialNumber d) (CopyFits d (taskGetUint d 1 3)) := by
  have hlen : taskGetUint d 1 3 < 256 := taskGetUint_lt d 1 3
  refine (Decides.next (yields_setFields (by decide))
    (decides_scsiMalloc (by omega) (by omega) (.next (yields_store (by omega))
      (.after yields_copy fails_copy fun _ => .ret d true)))).creating.congr ?_
  exact iff_of_eq (and_true _)

/-! ## Lists of descriptors -/

/-- The designators from `dptr` on, of `remaining` bytes, end within the data. -/
def DesignatorsFit (d : List UInt8) : Nat → Nat → Nat → Prop
  | 0, _, _ => True
  | fuel + 1, dptr, remaining =>
    let len := (d.getD (dptr + 3) 0).toNat
    remaining = 0 ∨ dptr + 4 + len ≤ d.length ∧
      DesignatorsFit d fuel (dptr + (len + 4)) (remaining - (len + 4))

theorem decides_designators :
    ∀ {fuel dptr remaining : Nat},
      Decides d (designators d fuel dptr remaining) (DesignatorsFit d fuel dptr remaining)
  | 0, _, _ => .ret d true
  | fuel + 1, dptr, remaining => by
    unfold designators DesignatorsFit
    by_cases hzero : remaining = 0
    · rw [if_pos hzero]
      exact (Decides.ret d true).congr (iff_of_true trivial (.inl hzero))
    rw [if_neg hzero]
    have hlen : (d.getD (dptr + 3) 0).toNat < 256 := UInt8.toNat_lt _
    refine (Decides.after yields_load fails_load fun _ => .after yields_load fails_load fun _ =>
      .after yields_load fails_load fun _ => decides_scsiMalloc (by omega) (by omega)
        (.next (yields_store (by omega)) (.after yields_copy fails_copy fun _ =>
          decides_designators))).creating.congr ?_
    simp only [hzero, false_or]
    constructor
    · rintro ⟨_, _, _, hcopy, hrest⟩
      exact ⟨by omega, hrest⟩
    · rintro ⟨hle, hrest⟩
      exact ⟨by omega, by omega, by omega, .inr (by omega), hrest⟩

/-- The commands from `lptr` on, of `remaining` bytes, end within the data, and what follows
fits. -/
def CommandsFit (d : List UInt8) (next : Prop) : Nat → Nat → Nat → Prop
  | 0, _, _ => next
  | fuel + 1, lptr, remaining =>
    let len := (d.getD (lptr + 1) 0).toNat
    if remaining = 0 then next
    else lptr + 2 + len ≤ d.length ∧
      CommandsFit d next fuel (lptr + (len + 2)) (remaining - (len + 2))

theorem decides_commandsSupported {k : Parser Bool} (hk : Decides d k c) :
    ∀ {fuel lptr remaining : Nat},
      Decides d (commandsSupported d k fuel lptr remaining) (CommandsFit d c fuel lptr remaining)
  | 0, _, _ => hk
  | fuel + 1, lptr, remaining => by
    unfold commandsSupported CommandsFit
    refine decides_ite (fun _ => hk) fun _ => ?_
    have hlen : (d.getD (lptr + 1) 0).toNat < 256 := UInt8.toNat_lt _
    refine (Decides.after yields_load fails_load fun _ => .after yields_load fails_load fun _ =>
      decides_scsiMalloc (by omega) (by omega) (.next (yields_store (by omega))
        (.after yields_copy fails_copy fun _ => decides_commandsSupported hk))).creating.congr ?_
    constructor
    · rintro ⟨_, _, hcopy, hrest⟩
      exact ⟨by omega, hrest⟩
    · rintro ⟨hle, hrest⟩
      exact ⟨by omega, by omega, .inr (by omega), hrest⟩

/-- The third party copy descriptors from `dptr` on, of `remaining` bytes, begin within the data,
and the lists of supported commands end within it. -/
def CopyDescriptorsFit (d : List UInt8) : Nat → Nat → Nat → Prop
  | 0, _, _ => True
  | fuel + 1, dptr, remaining =>
    let len := taskGetUint d 2 (dptr + 2)
    let next := CopyDescriptorsFit d fuel (dptr + (len + 4)) (remaining - (len + 4))
    remaining = 0 ∨ dptr + 4 ≤ d.length ∧
      if taskGetUint d 2 dptr = 1 then dptr + 4 < d.length ∧
        CommandsFit d next (d.getD (dptr + 4) 0).toNat (dptr + 5) (d.getD (dptr + 4) 0).toNat
      else next

theorem decides_copyDescriptors :
    ∀ {fuel dptr remaining : Nat},
      Decides d (copyDescriptors d fuel dptr remaining) (CopyDescriptorsFit d fuel dptr remaining)
  | 0, _, _ => .ret d true
  | fuel + 1, dptr, remaining => by
    unfold copyDescriptors CopyDescriptorsFit
    by_cases hzero : remaining = 0
    · rw [if_pos hzero]
      exact (Decides.ret d true).congr (iff_of_true trivial (.inl hzero))
    rw [if_neg hzero]
    simp only [hzero, false_or]
    refine Decides.after (fun hcopy => yields_copy (.inr hcopy))
      (fun hcopy => fails_copy (by omega)) fun _ => ?_
    refine decides_ite (fun _ => ?_) fun _ => decides_copyDescriptors
    refine (Decides.after yields_load fails_load fun _ => ?_).creating
    exact decides_commandsSupported decides_copyDescriptors

theorem decides_deviceIdentification : Decides d (scsiInquiryUnmarshallDeviceIdentification d)
    (DesignatorsFit d (taskGetUint d 2 2) 4 (taskGetUint d 2 2)) :=
  (Decides.next (yields_setFields (by decide)) decides_designators).creating

theorem decides_thirdPartyCopy : Decides d (scsiInquiryUnmarshallThirdPartyCopy d)
    (CopyDescriptorsFit d (taskGetUint d 2 2) 4 (taskGetUint d 2 2)) :=
  (Decides.next (yields_setFields (by decide)) decides_copyDescriptors).creating

/-- The INQUIRY data that is read within its bounds. -/
def InquiryFits (cdb d : List UInt8) : Prop :=
  let pageCode := cdb.getD 2 0
  if cdb.getD 1 0 &&& 0x1 = 0 then 36 ≤ d.length
  else if pageCode = 0x00 then CopyFits d (taskGetUint d 1 3)
  else if pageCode = 0x80 then CopyFits d (taskGetUint d 1 3)
  else if pageCode = 0x83 then DesignatorsFit d (taskGetUint d 2 2) 4 (taskGetUint d 2 2)
  else if pageCode = 0x8f then CopyDescriptorsFit d (taskGetUint d 2 2) 4 (taskGetUint d 2 2)
  else if pageCode = 0xb0 then 44 ≤ d.length ∨ taskGetUint d 4 36 = 0
  else True

theorem decides_inquiry {cdb : List UInt8} :
    Decides d (scsiInquiryDatainUnmarshall cdb d) (InquiryFits cdb d) := by
  unfold scsiInquiryDatainUnmarshall InquiryFits
  refine decides_ite (fun _ => decides_standard) fun _ => ?_
  refine decides_ite (fun _ => decides_supportedPages) fun _ => ?_
  refine decides_ite (fun _ => decides_unitSerialNumber) fun _ => ?_
  refine decides_ite (fun _ => decides_deviceIdentification) fun _ => ?_
  refine decides_ite (fun _ => decides_thirdPartyCopy) fun _ => ?_
  refine decides_ite (fun _ => decides_blockLimits) fun _ => ?_
  split
  · exact decides_blockDeviceCharacteristics
  split
  · exact decides_logicalBlockProvisioning
  · exact .ret d false

/-! ## Operation codes -/

/-- The timeouts descriptor, and what follows, is at a position that is an `int`. -/
def CommandDescriptorsFit (d : List UInt8) : Nat → Nat → Nat → Prop
  | 0, _, _ => True
  | fuel + 1, i, len =>
    len < 8 ∨ i + 8 < 2 ^ 31 ∧
      if taskGetUint d 1 (i + 5) &&& 0x02 = 0 then CommandDescriptorsFit d fuel (i + 8) (len - 8)
      else
        let size := taskGetUint d 2 (i + 8) + 2
        i + 8 + 8 < 2 ^ 31 ∧ i + 8 + size < 2 ^ 31 ∧
          CommandDescriptorsFit d fuel (i + 8 + size) (len - 8 - size)

theorem yields_commandDescriptors {rsoc : Nat} :
    ∀ {fuel n i len : Nat}, 4 + 20 * (n + len / 8) ≤ rsoc → CommandDescriptorsFit d fuel i len →
      Yields d (commandDescriptors d rsoc fuel n i len) ()
  | 0, _, _, _, _, _ => .pure d ()
  | fuel + 1, n, i, len, hroom, hfit => by
    unfold commandDescriptors
    unfold CommandDescriptorsFit at hfit
    by_cases hlen : len < 8
    · rw [if_pos hlen]
      exact .pure d ()
    rw [if_neg hlen]
    obtain ⟨hi, hfit⟩ := hfit.resolve_left hlen
    refine (yields_store (by omega)).bind ((yields_setFields ?_).bind ((yields_int hi).bind ?_))
    · intro f hf
      simp only [List.mem_cons, List.not_mem_nil, or_false] at hf
      rcases hf with rfl | rfl | rfl | rfl | rfl <;> simp only [field, flag] <;> omega
    by_cases hctdp : taskGetUint d 1 (i + 5) &&& 0x02 = 0
    · rw [if_pos hctdp] at hfit ⊢
      exact yields_commandDescriptors (by omega) hfit
    · rw [if_neg hctdp] at hfit ⊢
      obtain ⟨hfields, hnext, hfit⟩ := hfit
      refine (yields_setFields ?_).bind ((yields_int hnext).bind
        (yields_commandDescriptors (by omega) hfit))
      intro f hf
      simp only [List.mem_cons, List.not_mem_nil, or_false] at hf
      rcases hf with rfl | rfl | rfl | rfl <;> simp only [field] <;> omega

theorem fails_commandDescriptors {rsoc : Nat} :
    ∀ {fuel n i len : Nat}, 4 + 20 * (n + len / 8) ≤ rsoc → ¬CommandDescriptorsFit d fuel i len →
      Fails (commandDescriptors d rsoc fuel n i len)
  | 0, _, _, _, _, hfit => absurd trivial hfit
  | fuel + 1, n, i, len, hroom, hfit => by
    unfold commandDescriptors
    unfold CommandDescriptorsFit at hfit
    rw [not_or] at hfit
    obtain ⟨hlen, hfit⟩ := hfit
    rw [if_neg hlen]
    refine (yields_store (d := d) (by omega)).fails_bind ?_
    by_cases hfields : FieldsFit i [field "opcode" 1 0, field "sa" 2 2, flag "ctdp" 5 0x02,
      flag "servactv" 5 0x01, field "cdb_len" 2 6]
    swap
    · exact (fails_setFields hfields).bind
    refine (yields_setFields (d := d) hfields).fails_bind ?_
    by_cases hi : i + 8 < 2 ^ 31
    swap
    · exact (fails_int hi).bind
    refine (yields_int (d := d) hi).fails_bind ?_
    have hfit := fun hrest => hfit ⟨hi, hrest⟩
    by_cases hctdp : taskGetUint d 1 (i + 5) &&& 0x02 = 0
    · rw [if_pos hctdp] at hfit ⊢
      exact fails_commandDescriptors (by omega) hfit
    rw [if_neg hctdp] at hfit ⊢
    by_cases htimeouts : FieldsFit (i + 8) [field "descriptor_length" 2 0,
      field "command_specific" 1 3, field "nominal_processing_timeout" 4 4,
      field "recommended_timeout" 4 8]
    swap
    · exact (fails_setFields htimeouts).bind
    refine (yields_setFields (d := d) htimeouts).fails_bind ?_
    by_cases hnext : i + 8 + (taskGetUint d 2 (i + 8) + 2) < 2 ^ 31
    swap
    · exact (fails_int hnext).bind
    refine (yields_int (d := d) hnext).fails_bind (fails_commandDescriptors (by omega) fun hrest =>
      hfit ⟨htimeouts (field "recommended_timeout" 4 8) (by simp), hnext, hrest⟩)

/-- The descriptors of all operation codes, if their length is one that is allocated for. -/
def AllOpcodesFit (d : List UInt8) : Prop :=
  let len := (toInt (taskGetUint d 4 0)).toNat
  CommandDescriptorsFit d len 4 len

theorem decides_reportAllOpcodes : Decides d (reportAllOpcodes d) (AllOpcodesFit d) := by
  have hlt : taskGetUint d 4 0 < 2 ^ 32 := taskGetUint_lt d 4 0
  have hbounds := toInt_bounds hlt
  unfold reportAllOpcodes AllOpcodesFit
  simp only
  have hzero : ∀ {l : Nat}, l < 8 → CommandDescriptorsFit d l 4 l := fun {l} hl => by
    cases l with
    | zero => trivial
    | succ l => exact .inl hl
  split
  · next hfour =>
    rw [taskGetUint_short (by omega)]
    exact (Decides.ret d false).congr (iff_of_true trivial (hzero (by decide)))
  have hdiv := tdiv_cases (toInt (taskGetUint d 4 0)) 8
  simp only [Nat.cast_ofNat] at hdiv
  generalize toInt (taskGetUint d 4 0) = len at hbounds hdiv
  by_cases hneg : len.tdiv 8 < 0
  · exact (decides_scsiMalloc_null (by omega) (by omega)).congr
      (iff_of_true trivial (hzero (by omega)))
  · refine decides_scsiMalloc (by omega) (by omega)
      (.next (yields_store (by omega)) ?_)
    exact (Decides.after (yields_commandDescriptors (by omega))
      (fails_commandDescriptors (d := d) (by omega)) fun _ => .ret d true).congr
        (iff_of_eq (and_true _))

theorem decides_reportOneOpcode : Decides d (reportOneOpcode d)
    (taskGetUint d 2 2 % 256 ≤ 16 → CopyFits d (taskGetUint d 2 2 % 256)) := by
  unfold reportOneOpcode
  simp only
  set n := taskGetUint d 2 2 % 256 with hn
  have hlt : n < 256 := Nat.mod_lt _ (by norm_num)
  have htimeouts : Yields d (if taskGetUint d 1 1 &&& 0x80 = 0 then pure ()
      else setFields d (4 + n) [field "descriptor_length" 2 0, field "command_specific" 1 3,
        field "nominal_processing_timeout" 4 4, field "recommended_timeout" 4 8]) () := by
    split
    · exact .pure d ()
    · refine yields_setFields fun f hf => ?_
      simp only [List.mem_cons, List.not_mem_nil, or_false] at hf
      rcases hf with rfl | rfl | rfl | rfl <;> simp only [field] <;> omega
  refine (Decides.next (yields_setFields (by decide)) (.after (p := n ≤ 16 → CopyFits d n)
    (a := ()) (fun hp => ?_) (fun hp => ?_) fun _ =>
      .next htimeouts (.ret d true))).creating.congr (iff_of_eq (and_true _))
  · split
    · next hle => exact yields_copy (hp hle)
    · exact .pure d ()
  · rw [Classical.not_imp] at hp
    rw [if_pos hp.1]
    exact fails_copy hp.2

/-! ## Target port groups -/

/-- The number of ports of the group whose ports start at `i`, of which `k` are counted. -/
def portsCount (d : List UInt8) (i : Nat) : Nat → Nat → Nat
  | 0, k => k
  | left + 1, k => if i + (k + 1) * 4 ≤ d.length then portsCount d i left (k + 1) else k

/-- The positions the ports are compared at are an `int`. -/
def PortsFit (d : List UInt8) (i : Nat) : Nat → Nat → Prop
  | 0, _ => True
  | left + 1, k => i + (k + 1) * 4 < 2 ^ 31 ∧
      (i + (k + 1) * 4 ≤ d.length → PortsFit d i left (k + 1))

theorem portsCount_bounds (d : List UInt8) (i : Nat) :
    ∀ left k : Nat, k ≤ portsCount d i left k ∧ portsCount d i left k ≤ k + left
  | 0, k => ⟨le_refl _, le_refl _⟩
  | left + 1, k => by
    unfold portsCount
    split
    · have := portsCount_bounds d i left (k + 1)
      omega
    · omega

theorem yields_groupPorts {rtpg : Option (Nat × Nat)} {i port : Nat} (hd : d.length < 2 ^ 31) :
    ∀ {left k : Nat},
      (∀ size ports, rtpg = some (size, ports) →
        ports + 2 * (port + portsCount d i left k) ≤ size) →
      PortsFit d i left k → Yields d (groupPorts d rtpg i port left k) (portsCount d i left k)
  | 0, k, _, _ => .pure d k
  | left + 1, k, hroom, hfit => by
    unfold groupPorts
    unfold portsCount at hroom ⊢
    refine (yields_int hfit.1).bind ?_
    by_cases hle : i + (k + 1) * 4 ≤ d.length
    · rw [if_pos hle]
      simp only [if_pos hle] at hroom ⊢
      have hbounds := portsCount_bounds d i left (k + 1)
      refine Yields.bind (a := ()) ?_ (yields_groupPorts hd hroom (hfit.2 hle))
      cases hr : rtpg with
      | none => exact .pure d ()
      | some r =>
        have hroom := hroom r.1 r.2 hr
        refine (yields_store (by omega)).bind (yields_setFields fun f hf => ?_)
        obtain rfl := List.mem_singleton.1 hf
        simp only [field]
        omega
    · simp only [if_neg hle]
      exact .pure d k

theorem fails_groupPorts {i port : Nat} :
    ∀ {left k : Nat}, ¬PortsFit d i left k → Fails (groupPorts d none i port left k)
  | 0, _, hfit => absurd trivial hfit
  | left + 1, k, hfit => by
    unfold groupPorts
    by_cases hint : i + (k + 1) * 4 < 2 ^ 31
    swap
    · exact (fails_int hint).bind
    refine (yields_int (d := d) hint).fails_bind ?_
    unfold PortsFit at hfit
    rw [not_and, Classical.not_imp] at hfit
    obtain ⟨hle, hfit⟩ := hfit hint
    rw [if_pos hle]
    exact (Yields.pure d ()).fails_bind (fails_groupPorts hfit)

/-- The numbers of groups and ports from `i` on, added to those before. -/
def groupCounts (d : List UInt8) : Nat → Nat → Nat → Nat → Nat × Nat
  | 0, _, group, port => (group, port)
  | fuel + 1, i, group, port =>
    let k := portsCount d (i + 8) (taskGetUint d 1 (i + 7)) 0
    if d.length < i + 8 then (group, port)
    else groupCounts d fuel (i + 8 + k * 4) (group + 1) (port + k)

/-- The positions from `i` on are an `int`. -/
def GroupsFit (d : List UInt8) : Nat → Nat → Prop
  | 0, _ => True
  | fuel + 1, i =>
    let count := taskGetUint d 1 (i + 7)
    d.length < i + 8 ∨ PortsFit d (i + 8) count 0 ∧
      GroupsFit d fuel (i + 8 + portsCount d (i + 8) count 0 * 4)

theorem groupCounts_bounds (d : List UInt8) :
    ∀ fuel i group port : Nat, group ≤ (groupCounts d fuel i group port).1 ∧
      port ≤ (groupCounts d fuel i group port).2 ∧
      (groupCounts d fuel i group port).1 ≤ group + fuel ∧
      (groupCounts d fuel i group port).2 ≤ port + 256 * fuel
  | 0, _, _, _ => ⟨le_refl _, le_refl _, le_refl _, le_refl _⟩
  | fuel + 1, i, group, port => by
    unfold groupCounts
    simp only
    split
    · omega
    · have hlt : taskGetUint d 1 (i + 7) < 256 := taskGetUint_lt d 1 (i + 7)
      have hports := portsCount_bounds d (i + 8) (taskGetUint d 1 (i + 7)) 0
      generalize portsCount d (i + 8) (taskGetUint d 1 (i + 7)) 0 = k at hports
      have hrest := groupCounts_bounds d fuel (i + 8 + k * 4) (group + 1) (port + k)
      omega

theorem yields_portGroups {rtpg : Option (Nat × Nat)} (hd : d.length < 2 ^ 31) :
    ∀ {fuel i group port : Nat},
      (∀ size ports, rtpg = some (size, ports) →
        8 + 16 * (groupCounts d fuel i group port).1 ≤ size ∧
        ports + 2 * (groupCounts d fuel i group port).2 ≤ size) →
      GroupsFit d fuel i →
      Yields d (portGroups d rtpg fuel i group port) (groupCounts d fuel i group port)
  | 0, _, group, port, _, _ => .pure d (group, port)
  | fuel + 1, i, group, port, hroom, hfit => by
    unfold portGroups
    unfold groupCounts at hroom ⊢
    unfold GroupsFit at hfit
    by_cases hend : d.length < i + 8
    · simp only [if_pos hend]
      exact .pure d (group, port)
    simp only [if_neg hend] at hroom ⊢
    obtain ⟨hports, hrest⟩ := hfit.resolve_left hend
    have hbounds := groupCounts_bounds d fuel
      (i + 8 + portsCount d (i + 8) (taskGetUint d 1 (i + 7)) 0 * 4) (group + 1)
      (port + portsCount d (i + 8) (taskGetUint d 1 (i + 7)) 0)
    refine Yields.bind (a := ()) ?_ ((yields_groupPorts hd (fun size ports hr => ?_) hports).bind
      (yields_portGroups hd hroom hrest))
    · cases hr : rtpg with
      | none => exact .pure d ()
      | some r =>
        have hroom := hroom r.1 r.2 hr
        refine (yields_store (by omega)).bind (yields_setFields fun f hf => ?_)
        simp only [List.mem_cons, List.not_mem_nil, or_false] at hf
        rcases hf with rfl | rfl | rfl | rfl | rfl <;> simp only [field] <;> omega
    · have hroom := hroom size ports hr
      omega

theorem fails_portGroups (hd : d.length < 2 ^ 31) :
    ∀ {fuel i group port : Nat}, ¬GroupsFit d fuel i →
      Fails (portGroups d none fuel i group port)
  | 0, _, _, _, hfit => absurd trivial hfit
  | fuel + 1, i, group, port, hfit => by
    unfold portGroups
    unfold GroupsFit at hfit
    rw [not_or] at hfit
    obtain ⟨hend, hfit⟩ := hfit
    rw [if_neg hend]
    refine (Yields.pure d ()).fails_bind ?_
    by_cases hports : PortsFit d (i + 8) (taskGetUint d 1 (i + 7)) 0
    · refine (yields_groupPorts hd (by simp) hports).fails_bind
        (fails_portGroups hd fun hrest => ?_)
      exact hfit ⟨hports, hrest⟩
    · exact (fails_groupPorts hports).bind

/-- The target port groups. -/
def PortGroupsFit (d : List UInt8) : Prop := d.length < 4 ∨ GroupsFit d d.length 4

theorem decides_reportTargetPortGroups (hd : d.length < 2 ^ 31) :
    Decides d (scsiReportTargetPortGroupsUnmarshal d) (PortGroupsFit d) := by
  unfold scsiReportTargetPortGroupsUnmarshal PortGroupsFit
  by_cases hfour : d.length < 4
  · rw [if_pos hfour]
    exact (Decides.ret d false).congr (iff_of_true trivial (.inl hfour))
  rw [if_neg hfour]
  have hbounds := groupCounts_bounds d d.length 4 0 0
  refine (Decides.after (yields_portGroups hd (by simp)) (fails_portGroups hd) fun hfit =>
    decides_scsiMalloc (by omega) (by omega) (.next (yields_store (by omega))
      (.next (yields_portGroups hd (fun size ports hr => ?_) hfit) (.ret d true)))).congr ?_
  · obtain ⟨rfl, rfl⟩ := Prod.mk.inj (Option.some.inj hr)
    omega
  · simp [hfour]

/-- The data of a MAINTENANCE IN that is read within its bounds. -/
def MaintenanceinFits (cdb d : List UInt8) : Prop :=
  if cdb.getD 1 0 = 0x0c then
    let options := cdb.getD 2 0 &&& 0x07
    if options = 0 then AllOpcodesFit d
    else if options = 1 ∨ options = 2 then
      taskGetUint d 2 2 % 256 ≤ 16 → CopyFits d (taskGetUint d 2 2 % 256)
    else True
  else if cdb.getD 1 0 = 0x0a then PortGroupsFit d
  else True

theorem decides_maintenancein {cdb : List UInt8} (hd : d.length < 2 ^ 31) :
    Decides d (scsiMaintenanceinDatainUnmarshall cdb d) (MaintenanceinFits cdb d) := by
  unfold scsiMaintenanceinDatainUnmarshall MaintenanceinFits
  refine decides_ite (fun _ => ?_) fun _ => ?_
  · refine decides_ite (fun _ => decides_reportAllOpcodes) fun _ => ?_
    exact decides_ite (fun _ => decides_reportOneOpcode) fun _ => .ret d false
  · exact decides_ite (fun _ => decides_reportTargetPortGroups hd) fun _ => .ret d false

/-! ## Mode pages -/

/-- The positions of the mode pages from `pos` on, and of their fields, are an `int`. -/
def ModePagesFit (d : List UInt8) : Nat → Nat → Prop
  | 0, _ => True
  | fuel + 1, pos =>
    let (fields, size, len) := modePageHeader d pos
    d.length ≤ pos ∨
      FieldsFit pos ([masked "ps" 0 0x80, masked "spf" 0 0x40, masked "page_code" 0 0x3f] ++
        fields) ∧ pos + size < 2 ^ 31 ∧
      FieldsFit (pos + size) (modePageFields (taskGetUint d 1 pos &&& 0x3f)) ∧
      pos + size + len < 2 ^ 31 ∧ ModePagesFit d fuel (pos + size + len)

theorem decides_modePages :
    ∀ {fuel pos : Nat}, Decides d (modePages d fuel pos) (ModePagesFit d fuel pos)
  | 0, _ => .ret d true
  | fuel + 1, pos => by
    unfold modePages ModePagesFit
    by_cases hend : d.length ≤ pos
    · rw [if_pos hend]
      exact (Decides.ret d true).congr (iff_of_true trivial (.inl hend))
    rw [if_neg hend]
    rcases modePageHeader d pos with ⟨fields, size, len⟩
    simp only [hend, false_or]
    exact .allocating true (.after yields_setFields fails_setFields fun _ =>
      .after yields_int fails_int fun _ => .after yields_setFields fails_setFields fun _ =>
      .after yields_int fails_int fun _ => decides_modePages)

/-- The MODE SENSE data that is read within its bounds. -/
def ModesenseFits (d : List UInt8) (isModesense6 : Bool) : Prop :=
  let hdrLen := if isModesense6 then 4 else 8
  d.length < hdrLen ∨ d.length < taskGetUint d (if isModesense6 then 1 else 2) 0 + 1 ∨
    ModePagesFit d d.length
      (hdrLen + if isModesense6 then taskGetUint d 1 3 else taskGetUint d 2 6 % 256)

theorem decides_modesense {isModesense6 : Bool} :
    Decides d (scsiModesenseDatain d isModesense6) (ModesenseFits d isModesense6) := by
  unfold scsiModesenseDatain ModesenseFits
  simp only
  by_cases hhdr : d.length < if isModesense6 then 4 else 8
  · rw [if_pos hhdr]
    exact (Decides.ret d false).congr (iff_of_true trivial (.inl hhdr))
  rw [if_neg hhdr]
  refine Decides.creating (.next (yields_setFields ?_) ?_)
  · cases isModesense6 <;> decide
  by_cases hlen : d.length < taskGetUint d (if isModesense6 then 1 else 2) 0 + 1
  · rw [if_pos hlen]
    exact (Decides.ret d false).congr (iff_of_true trivial (.inr (.inl hlen)))
  · rw [if_neg hlen]
    exact decides_modePages.congr (by simp only [hhdr, hlen, false_or])

/-! ## The turns of the loops are enough -/

theorem designators_enough : ∀ {fuel dptr remaining : Nat}, remaining ≤ fuel →
    designators d (fuel + 1) dptr remaining = designators d fuel dptr remaining
  | 0, _, _, h => if_pos (Nat.le_zero.1 h)
  | fuel + 1, dptr, remaining, h => by
    unfold designators
    by_cases hzero : remaining = 0
    · rw [if_pos hzero, if_pos hzero]
    · rw [if_neg hzero, if_neg hzero]
      simp (disch := omega) only [designators_enough]

theorem commandsSupported_enough {k : Parser Bool} : ∀ {fuel lptr remaining : Nat},
    remaining ≤ fuel →
      commandsSupported d k (fuel + 1) lptr remaining = commandsSupported d k fuel lptr remaining
  | 0, _, _, h => if_pos (Nat.le_zero.1 h)
  | fuel + 1, lptr, remaining, h => by
    unfold commandsSupported
    by_cases hzero : remaining = 0
    · rw [if_pos hzero, if_pos hzero]
    · rw [if_neg hzero, if_neg hzero]
      simp (disch := omega) only [commandsSupported_enough]

theorem copyDescriptors_enough : ∀ {fuel dptr remaining : Nat}, remaining ≤ fuel →
    copyDescriptors d (fuel + 1) dptr remaining = copyDescriptors d fuel dptr remaining
  | 0, _, _, h => if_pos (Nat.le_zero.1 h)
  | fuel + 1, dptr, remaining, h => by
    unfold copyDescriptors
    by_cases hzero : remaining = 0
    · rw [if_pos hzero, if_pos hzero]
    · rw [if_neg hzero, if_neg hzero]
      simp (disch := omega) only [copyDescriptors_enough]

theorem portGroups_enough {rtpg : Option (Nat × Nat)} : ∀ {fuel i group port : Nat},
    d.length ≤ i + fuel →
      portGroups d rtpg (fuel + 1) i group port = portGroups d rtpg fuel i group port
  | 0, _, _, _, h => if_pos (by omega)
  | fuel + 1, i, group, port, h => by
    unfold portGroups
    by_cases hend : d.length < i + 8
    · rw [if_pos hend, if_pos hend]
    · rw [if_neg hend, if_neg hend]
      simp (disch := omega) only [portGroups_enough]

theorem commandDescriptors_enough {rsoc : Nat} : ∀ {fuel n i len : Nat}, len ≤ fuel →
    commandDescriptors d rsoc (fuel + 1) n i len = commandDescriptors d rsoc fuel n i len
  | 0, _, _, _, h => if_pos (by omega)
  | fuel + 1, n, i, len, h => by
    unfold commandDescriptors
    by_cases hend : len < 8
    · rw [if_pos hend, if_pos hend]
    · rw [if_neg hend, if_neg hend]
      simp (disch := omega) only [commandDescriptors_enough]

theorem int_bind {β : Type} (n : Nat) (k : Nat → Parser β) :
    (int n >>= k) = (int n >>= fun _ => k n) := by
  funext s
  by_cases h : n < 2 ^ 31
  · rw [bind_ok (if_pos h : int n s = .ok (n, s)), bind_ok (if_pos h : int n s = .ok (n, s))]
  · rw [bind_error (if_neg h : int n s = .error .overflow),
      bind_error (if_neg h : int n s = .error .overflow)]

theorem modePageHeader_size (pos : Nat) : 2 ≤ (modePageHeader d pos).2.1 := by
  unfold modePageHeader
  split <;> simp

theorem modePages_enough : ∀ {fuel pos : Nat}, d.length ≤ pos + fuel →
    modePages d (fuel + 1) pos = modePages d fuel pos
  | 0, _, h => if_pos (by omega)
  | fuel + 1, pos, h => by
    unfold modePages
    by_cases hend : d.length ≤ pos
    · rw [if_pos hend, if_pos hend]
    rw [if_neg hend, if_neg hend]
    have hsize := modePageHeader_size (d := d) pos
    rcases hheader : modePageHeader d pos with ⟨fields, size, len⟩
    rw [hheader] at hsize
    simp only at hsize ⊢
    -- the next position is known only where the addition did not overflow
    have hnext : ∀ fuel, (int (pos + size + len) >>= fun next => modePages d fuel next) =
        (int (pos + size + len) >>= fun _ => modePages d fuel (pos + size + len)) :=
      fun fuel => int_bind ..
    have hbody : ∀ k : Nat → Parser Bool, (int (pos + size) >>= fun body =>
        setFields d body (modePageFields (taskGetUint d 1 pos &&& 0x3f)) >>= fun _ =>
        int (body + len) >>= k) = (int (pos + size) >>= fun _ =>
        setFields d (pos + size) (modePageFields (taskGetUint d 1 pos &&& 0x3f)) >>= fun _ =>
        int (pos + size + len) >>= k) := fun k => int_bind ..
    rw [hbody, hbody, hnext, hnext, modePages_enough (by omega)]

end

/-! ## All commands -/

/-- The data of a command, whose size is an `int`. -/
structure Datain where
  data : List UInt8
  size_lt : data.length < 2 ^ 31

/-- The data that is read within its bounds. -/
def Fits (cdb d : List UInt8) : Prop :=
  let opcode := cdb.getD 0 0
  if d.length = 0 then True
  else if opcode = 0x12 then InquiryFits cdb d
  else if opcode = 0x1a then ModesenseFits d true
  else if opcode = 0x5a then ModesenseFits d false
  else if opcode = 0x25 then True
  else if opcode = 0x43 then True
  else if opcode = 0xa0 then LunsFit d
  else if opcode = 0x9e then
    (cdb.getD 1 0 = 0x10 → 8 ≤ d.length ∨ taskGetUint d 4 0 = 0)
  else if opcode = 0x5e then True
  else if opcode = 0xa3 then MaintenanceinFits cdb d
  else True

theorem decides_serviceactionin {cdb d : List UInt8} (hd : d.length < 2 ^ 31) :
    Decides d (scsiServiceactioninDatainUnmarshall cdb d)
      (cdb.getD 1 0 = 0x10 → 8 ≤ d.length ∨ taskGetUint d 4 0 = 0) := by
  unfold scsiServiceactioninDatainUnmarshall
  split
  · next h => exact decides_readcapacity16.congr ⟨fun hc _ => hc, fun hc => hc h⟩
  · next h =>
    refine Decides.congr ?_ (iff_of_true trivial fun h' => absurd h' h)
    split
    · exact decides_getLbaStatus hd
    · exact .ret d false

theorem decides_datain {cdb d : List UInt8} (hd : d.length < 2 ^ 31) :
    Decides d (scsiDatainUnmarshall cdb d) (Fits cdb d) := by
  unfold scsiDatainUnmarshall Fits
  refine decides_ite (fun _ => .ret d false) fun _ => ?_
  refine decides_ite (fun _ => decides_inquiry) fun _ => ?_
  refine decides_ite (fun _ => decides_modesense) fun _ => ?_
  refine decides_ite (fun _ => decides_modesense) fun _ => ?_
  refine decides_ite (fun _ => decides_readcapacity10) fun _ => ?_
  refine decides_ite (fun _ => decides_readtoc) fun _ => ?_
  refine decides_ite (fun _ => decides_reportluns hd) fun _ => ?_
  refine decides_ite (fun _ => decides_serviceactionin hd) fun _ => ?_
  refine decides_ite (fun _ => decides_persistentreservein hd) fun _ => ?_
  refine decides_ite (fun _ => decides_maintenancein hd) fun _ => ?_
  split
  · exact decides_receivecopyresults
  · exact .ret d false

/-- The data is read and the structures are filled within their bounds, whatever the outcomes of the
allocations, and if there is a result, no field that is not there is set to anything but zero. -/
def StaysWithin (cdb : List UInt8) (d : Datain) : Prop :=
  ∀ allocs, ∃ r s, scsiDatainUnmarshall cdb d.data { allocs } = .ok (r, s) ∧
    (r = true → s.Good d.data)

/-- **The data that is read within its bounds** is the data that fits. -/
theorem unmarshall_iff (cdb : List UInt8) (d : Datain) : StaysWithin cdb d ↔ Fits cdb d.data :=
  (decides_datain d.size_lt).iff

/-- The standard INQUIRY data of one byte: its vendor identification is copied all the same. -/
theorem inquiry_reads_outside :
    ¬∀ (cdb : List UInt8) (d : Datain), StaysWithin cdb d := by
  intro hall
  have hrun : (scsiDatainUnmarshall [0x12] [0] {}).toOption.isNone = true := by decide +kernel
  obtain ⟨r, s, hr, _⟩ := hall [0x12] ⟨[0], by decide⟩ []
  rw [hr] at hrun
  cases hrun

end Libiscsi.Unmarshall
