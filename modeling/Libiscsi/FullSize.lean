import Libiscsi.Decode
import Libiscsi.UnmarshallCorrect

/-!
# The size of the whole data

`scsi_datain_getfullsize` says how much data a command has, from the part of it that has been read,
so that the command can be sent again with room for all of it. The sizes have a fixed width, and
some pages and service actions get a size that is too small (`sufficient_iff`).
-/

namespace Libiscsi.Decode

open Bounded Unmarshall

section
variable (cdb d : List UInt8)

/-! ## The sizes -/

/-- `scsi_inquiry_datain_getfullsize`. -/
def scsiInquiryDatainGetfullsize : Int :=
  let pageCode := cdb.getD 2 0
  if cdb.getD 1 0 &&& 0x1 = 0 then taskGetUint d 1 4 + 5
  else if pageCode = 0x00 ∨ pageCode = 0xb1 ∨ pageCode = 0x80 then taskGetUint d 1 3 + 4
  else if pageCode = 0x83 ∨ pageCode = 0xb0 ∨ pageCode = 0xb2 then taskGetUint d 2 2 + 4
  else -1

/-- `scsi_modesense_datain_getfullsize`. -/
def scsiModesenseDatainGetfullsize (isModesense6 : Bool) : Int :=
  if isModesense6 then taskGetUint d 1 0 + 1 else taskGetUint d 2 0 + 2

/-- `scsi_readtoc_datain_getfullsize`. The size has 16 bits. -/
def scsiReadtocDatainGetfullsize : Int := ((taskGetUint d 2 0 + 2) % 2 ^ 16 : Nat)

/-- `scsi_reportluns_datain_getfullsize`. -/
def scsiReportlunsDatainGetfullsize : Int := toInt ((taskGetUint d 4 0 + 8) % 2 ^ 32)

/-- `scsi_persistentreservein_datain_getfullsize`. -/
def scsiPersistentreserveinDatainGetfullsize : Int :=
  let sa := cdb.getD 1 0 &&& 0x1f
  if sa = 0 then toInt ((taskGetUint d 4 4 + 8) % 2 ^ 32)
  else if sa = 1 then 8
  else if sa = 2 then 8
  else -1

/-- `scsi_maintenancein_datain_getfullsize`. -/
def scsiMaintenanceinDatainGetfullsize : Int :=
  if cdb.getD 1 0 = 0x0c then
    let options := cdb.getD 2 0 &&& 0x07
    if options = 0 then toInt ((taskGetUint d 4 0 + 4) % 2 ^ 32)
    else if options = 1 ∨ options = 2 then
      4 + (if taskGetUint d 1 1 &&& 0x80 ≠ 0 then 12 else 0) + taskGetUint d 2 2
    else -1
  else if cdb.getD 1 0 = 0x0a then toInt ((taskGetUint d 4 0 + 4) % 2 ^ 32)
  else -1

/-- `scsi_datain_getfullsize`. -/
def scsiDatainGetfullsize : Int :=
  let opcode := cdb.getD 0 0
  if opcode = 0x00 then 0
  else if opcode = 0x12 then scsiInquiryDatainGetfullsize cdb d
  else if opcode = 0x1a then scsiModesenseDatainGetfullsize d true
  else if opcode = 0x25 then 8
  else if opcode = 0x35 then 0
  else if opcode = 0x43 then scsiReadtocDatainGetfullsize d
  else if opcode = 0xa0 then scsiReportlunsDatainGetfullsize d
  else if opcode = 0x5e then scsiPersistentreserveinDatainGetfullsize cdb d
  else if opcode = 0xa3 then scsiMaintenanceinDatainGetfullsize cdb d
  else -1

/-! ## What the data declares -/

/-- The declared length of the data of a command that has a size, with its header. -/
def declaredTotal : Option Nat :=
  let opcode := cdb.getD 0 0
  let sa := cdb.getD 1 0 &&& 0x1f
  let pageCode := cdb.getD 2 0
  if opcode = 0x00 then some 0
  else if opcode = 0x12 then
    if cdb.getD 1 0 &&& 0x1 = 0 then some (taskGetUint d 1 4 + 5)
    else if pageCode = 0x00 ∨ pageCode = 0xb1 ∨ pageCode = 0x80 ∨ pageCode = 0x83 ∨
        pageCode = 0xb0 ∨ pageCode = 0xb2 then some (taskGetUint d 2 2 + 4)
    else none
  else if opcode = 0x1a then some (taskGetUint d 1 0 + 1)
  else if opcode = 0x25 then some 8
  else if opcode = 0x35 then some 0
  else if opcode = 0x43 then some (taskGetUint d 2 0 + 2)
  else if opcode = 0xa0 then some (taskGetUint d 4 0 + 8)
  else if opcode = 0x5e then
    if sa = 0 ∨ sa = 1 then some (taskGetUint d 4 4 + 8)
    else if sa = 2 then some (taskGetUint d 2 0)
    else none
  else if opcode = 0xa3 then
    if cdb.getD 1 0 = 0x0c then
      let options := cdb.getD 2 0 &&& 0x07
      if options = 0 then some (taskGetUint d 4 0 + 4)
      else if options = 1 ∨ options = 2 then
        some (4 + (if taskGetUint d 1 1 &&& 0x80 ≠ 0 then 12 else 0) + taskGetUint d 2 2)
      else none
    else if cdb.getD 1 0 = 0x0a then some (taskGetUint d 4 0 + 4)
    else none
  else none

/-- The size is not smaller than what the data declares, and if that is all of the data, as many
bytes of it are unmarshalled like all of them. -/
def Sufficient : Prop :=
  ∀ total, declaredTotal cdb d = some total →
    (total : Int) ≤ scsiDatainGetfullsize cdb d ∧
      (d.length = total →
        scsiDatainUnmarshall cdb (d.take (scsiDatainGetfullsize cdb d).toNat) =
          scsiDatainUnmarshall cdb d)

/-- The declared lengths for which the size is sufficient. -/
def SizeFits : Prop :=
  let opcode := cdb.getD 0 0
  let sa := cdb.getD 1 0 &&& 0x1f
  let pageCode := cdb.getD 2 0
  (opcode = 0x12 ∧ cdb.getD 1 0 &&& 0x1 ≠ 0 ∧
      (pageCode = 0x00 ∨ pageCode = 0xb1 ∨ pageCode = 0x80) → taskGetUint d 2 2 < 2 ^ 8) ∧
    (opcode = 0x43 → taskGetUint d 2 0 < 2 ^ 16 - 2) ∧
    (opcode = 0xa0 → taskGetUint d 4 0 < 2 ^ 31 - 8) ∧
    (opcode = 0x5e ∧ sa = 0 → taskGetUint d 4 4 < 2 ^ 31 - 8) ∧
    (opcode = 0x5e ∧ sa = 1 → taskGetUint d 4 4 = 0) ∧
    (opcode = 0x5e ∧ sa = 2 → taskGetUint d 2 0 ≤ 8) ∧
    (opcode = 0xa3 ∧ (cdb.getD 1 0 = 0x0c ∧ cdb.getD 2 0 &&& 0x07 = 0 ∨ cdb.getD 1 0 = 0x0a) →
      taskGetUint d 4 0 < 2 ^ 31 - 4)

end

/-! ## Which sizes are sufficient -/

section
variable {cdb d : List UInt8}

/-- All bytes are unmarshalled like themselves. -/
theorem sufficient_iff_le : Sufficient cdb d ↔
    ∀ total, declaredTotal cdb d = some total → (total : Int) ≤ scsiDatainGetfullsize cdb d := by
  constructor
  · intro h total ht
    exact (h total ht).1
  · intro h total ht
    have hle := h total ht
    refine ⟨hle, fun hall => ?_⟩
    rw [List.take_of_length_le (by omega)]

/-- A length of 32 bits, with its header, in an `int`. -/
theorem le_toInt_iff {len header : Nat} (hlen : len < 2 ^ 32) (hheader : header < 2 ^ 31)
    (hpos : 0 < header) :
    ((len + header : Nat) : Int) ≤ toInt ((len + header) % 2 ^ 32) ↔ len < 2 ^ 31 - header := by
  unfold toInt
  split <;> omega

/-- A page length, of which the size knows the second byte. -/
theorem le_pageSize_iff :
    ((taskGetUint d 2 2 + 4 : Nat) : Int) ≤ (taskGetUint d 1 3 : Int) + 4 ↔
      taskGetUint d 2 2 < 2 ^ 8 := by
  have hlow : taskGetUint d 1 3 < 2 ^ 8 := taskGetUint_lt d 1 3
  by_cases hlen : 4 ≤ d.length
  · have hadd : uint d 2 2 = uint d 1 2 * 256 ^ 1 + uint d 1 3 :=
      @uint_add d 1 2 1 (by omega)
    unfold taskGetUint at hlow ⊢
    omega
  · rw [taskGetUint_short (by omega : d.length < 2 + 2)]
    omega

/-- The sizes of INQUIRY. -/
theorem inquiry_le_iff (hop : cdb.getD 0 0 = 0x12) :
    (∀ total, declaredTotal cdb d = some total → (total : Int) ≤ scsiDatainGetfullsize cdb d) ↔
      (cdb.getD 1 0 &&& 0x1 ≠ 0 ∧ (cdb.getD 2 0 = 0x00 ∨ cdb.getD 2 0 = 0xb1 ∨
        cdb.getD 2 0 = 0x80) → taskGetUint d 2 2 < 2 ^ 8) := by
  have hcond := le_pageSize_iff (d := d)
  unfold declaredTotal scsiDatainGetfullsize scsiInquiryDatainGetfullsize
  generalize cdb.getD 0 0 = op at *
  generalize cdb.getD 1 0 = b
  generalize cdb.getD 2 0 = page
  subst hop
  by_cases hevpd : b &&& 0x1 = 0
  · simp [hevpd]
  by_cases hshort : page = 0x00 ∨ page = 0xb1 ∨ page = 0x80
  · have hlong : page = 0x00 ∨ page = 0xb1 ∨ page = 0x80 ∨ page = 0x83 ∨ page = 0xb0 ∨
        page = 0xb2 := by
      rcases hshort with h | h | h <;> simp [h]
    simp only [hevpd, hshort, hlong]
    simpa [hevpd] using hcond
  rw [iff_true_right fun h => absurd h.2 hshort]
  intro total htotal
  by_cases hlong : page = 0x83 ∨ page = 0xb0 ∨ page = 0xb2
  · simp only [hevpd, hshort, hlong] at htotal ⊢
    simp at htotal ⊢
    omega
  · have hall : ¬(page = 0x00 ∨ page = 0xb1 ∨ page = 0x80 ∨ page = 0x83 ∨ page = 0xb0 ∨
        page = 0xb2) := by
      rintro (h | h | h | h)
      · exact hshort (.inl h)
      · exact hshort (.inr (.inl h))
      · exact hshort (.inr (.inr h))
      · exact hlong h
    simp [hevpd, hall] at htotal

/-- The sizes of PERSISTENT RESERVE IN. -/
theorem persistentreservein_le_iff (hop : cdb.getD 0 0 = 0x5e) :
    (∀ total, declaredTotal cdb d = some total → (total : Int) ≤ scsiDatainGetfullsize cdb d) ↔
      (cdb.getD 1 0 &&& 0x1f = 0 → taskGetUint d 4 4 < 2 ^ 31 - 8) ∧
        (cdb.getD 1 0 &&& 0x1f = 1 → taskGetUint d 4 4 = 0) ∧
        (cdb.getD 1 0 &&& 0x1f = 2 → taskGetUint d 2 0 ≤ 8) := by
  have hcond := @le_toInt_iff _ 8 (taskGetUint_lt d 4 4) (by decide) (by decide)
  unfold declaredTotal scsiDatainGetfullsize scsiPersistentreserveinDatainGetfullsize
  generalize cdb.getD 0 0 = op at *
  generalize cdb.getD 1 0 &&& 0x1f = sa
  subst hop
  by_cases h0 : sa = 0
  · subst h0
    simpa using hcond
  by_cases h1 : sa = 1
  · subst h1
    simp
  by_cases h2 : sa = 2
  · subst h2
    simp
  · simp [h0, h1, h2]

/-- The sizes of MAINTENANCE IN. -/
theorem maintenancein_le_iff (hop : cdb.getD 0 0 = 0xa3) :
    (∀ total, declaredTotal cdb d = some total → (total : Int) ≤ scsiDatainGetfullsize cdb d) ↔
      (cdb.getD 1 0 = 0x0c ∧ cdb.getD 2 0 &&& 0x07 = 0 ∨ cdb.getD 1 0 = 0x0a →
        taskGetUint d 4 0 < 2 ^ 31 - 4) := by
  have hcond := @le_toInt_iff _ 4 (taskGetUint_lt d 4 0) (by decide) (by decide)
  unfold declaredTotal scsiDatainGetfullsize scsiMaintenanceinDatainGetfullsize
  generalize cdb.getD 0 0 = op at *
  generalize cdb.getD 1 0 = sa
  generalize cdb.getD 2 0 &&& 0x07 = options
  subst hop
  by_cases hall : sa = 0x0c
  · subst hall
    by_cases h0 : options = 0
    · subst h0
      simpa using hcond
    by_cases hone : options = 1 ∨ options = 2
    · simp only [h0, hone]
      simp
    · simp only [h0, hone]
      simp
  by_cases hgroups : sa = 0x0a
  · subst hgroups
    simpa using hcond
  · simp [hall, hgroups]

variable (cdb d)

/-- **The sizes that are sufficient** are those of declared lengths that fit. -/
theorem sufficient_iff : Sufficient cdb d ↔ SizeFits cdb d := by
  rw [sufficient_iff_le]
  have hluns := @le_toInt_iff _ 8 (taskGetUint_lt d 4 0) (by decide) (by decide)
  by_cases hinquiry : cdb.getD 0 0 = 0x12
  · rw [inquiry_le_iff hinquiry]
    unfold SizeFits
    generalize cdb.getD 0 0 = op at *
    generalize cdb.getD 1 0 = b
    generalize cdb.getD 2 0 = page
    subst hinquiry
    simp
  by_cases hreserve : cdb.getD 0 0 = 0x5e
  · rw [persistentreservein_le_iff hreserve]
    unfold SizeFits
    generalize cdb.getD 0 0 = op at *
    generalize cdb.getD 1 0 = b
    generalize cdb.getD 2 0 = page
    subst hreserve
    simp
  by_cases hmaintenance : cdb.getD 0 0 = 0xa3
  · rw [maintenancein_le_iff hmaintenance]
    unfold SizeFits
    generalize cdb.getD 0 0 = op at *
    generalize cdb.getD 1 0 = b
    generalize cdb.getD 2 0 = page
    subst hmaintenance
    simp
  have hother : SizeFits cdb d ↔ (cdb.getD 0 0 = 0x43 → taskGetUint d 2 0 < 2 ^ 16 - 2) ∧
      (cdb.getD 0 0 = 0xa0 → taskGetUint d 4 0 < 2 ^ 31 - 8) := by
    unfold SizeFits
    simp only [hinquiry, hreserve, hmaintenance, false_and, false_imp_iff, and_true, true_and]
  rw [hother]
  unfold declaredTotal scsiDatainGetfullsize scsiModesenseDatainGetfullsize
    scsiReadtocDatainGetfullsize scsiReportlunsDatainGetfullsize
  have htoc : ((taskGetUint d 2 0 + 2 : Nat) : Int) ≤ ((taskGetUint d 2 0 + 2) % 2 ^ 16 : Nat) ↔
      taskGetUint d 2 0 < 2 ^ 16 - 2 := by
    have hlt : taskGetUint d 2 0 < 2 ^ 16 := taskGetUint_lt d 2 0
    omega
  simp only [hinquiry, hreserve, hmaintenance]
  generalize cdb.getD 0 0 = op at *
  by_cases h43 : op = 0x43
  · subst h43
    simpa using htoc
  by_cases ha0 : op = 0xa0
  · subst ha0
    simpa using hluns
  by_cases h00 : op = 0x00
  · simp [h00]
  by_cases h1a : op = 0x1a
  · simp [h1a]
  by_cases h25 : op = 0x25
  · simp [h25]
  by_cases h35 : op = 0x35
  · simp [h35]
  simp [h43, ha0, h00, h1a, h25, h35]

/-- READ RESERVATION has a size of 8 for the 24 bytes of a reservation: the reservation is lost. -/
theorem readReservation_lost : ¬∀ (cdb : List UInt8) (d : Unmarshall.Datain),
    Sufficient cdb d.data := by
  intro h
  obtain ⟨hle, -⟩ := h [0x5e, 1, 0, 0, 0, 0, 0, 0, 24, 0]
    ⟨[0, 0, 0, 1, 0, 0, 0, 16] ++ List.replicate 16 1, by decide⟩ 24 (by decide)
  revert hle
  decide

end

end Libiscsi.Decode
