import Libiscsi.Lib.Outcome

/-!
# Big-endian fields of a byte buffer

`scsi_get_uint32`, `scsi_set_uint32` and their 16-bit siblings (`lib/scsi-lowlevel.c`) read and
write a field at an offset of a buffer. A buffer is the list of its bytes. A field that was set is
read back, and a field is not changed by setting one that does not overlap it.
-/

namespace Libiscsi

/-- `c[i]`. -/
def byte (c : List UInt8) (i : Nat) : UInt8 := c.getD i 0

/-- `scsi_get_uint32(&c[i])`. -/
def scsiGetUint32 (c : List UInt8) (i : Nat) : UInt32 :=
  let val := (byte c i).toUInt32
  let val := (val <<< 8) ||| (byte c (i + 1)).toUInt32
  let val := (val <<< 8) ||| (byte c (i + 2)).toUInt32
  (val <<< 8) ||| (byte c (i + 3)).toUInt32

/-- `scsi_get_uint16(&c[i])`. -/
def scsiGetUint16 (c : List UInt8) (i : Nat) : UInt16 :=
  let val := (byte c i).toUInt16
  (val <<< 8) ||| (byte c (i + 1)).toUInt16

/-- `scsi_set_uint32(&c[i], val)`. -/
def scsiSetUint32 (c : List UInt8) (i : Nat) (val : UInt32) : List UInt8 :=
  (((c.set i (val >>> 24).toUInt8).set (i + 1) (val >>> 16).toUInt8).set (i + 2)
    (val >>> 8).toUInt8).set (i + 3) val.toUInt8

/-- `scsi_set_uint16(&c[i], val)`. -/
def scsiSetUint16 (c : List UInt8) (i : Nat) (val : UInt16) : List UInt8 :=
  (c.set i (val >>> 8).toUInt8).set (i + 1) val.toUInt8

/-- `n` bytes of `src` are copied to `&c[i]`; past the end of `src` they are zero. -/
def copyBytes (c : List UInt8) (i : Nat) (src : List UInt8) : Nat → List UInt8
  | 0 => c
  | n + 1 => (copyBytes c i src n).set (i + n) (byte src n)

@[simp] theorem length_copyBytes (c : List UInt8) (i : Nat) (src : List UInt8) (n : Nat) :
    (copyBytes c i src n).length = c.length := by
  induction n with
  | zero => rfl
  | succ n ih => rw [copyBytes, List.length_set, ih]

@[simp] theorem length_scsiSetUint32 (c : List UInt8) (i : Nat) (v : UInt32) :
    (scsiSetUint32 c i v).length = c.length := by
  simp [scsiSetUint32]

@[simp] theorem length_scsiSetUint16 (c : List UInt8) (i : Nat) (v : UInt16) :
    (scsiSetUint16 c i v).length = c.length := by
  simp [scsiSetUint16]

/-- A byte outside the one that is set is not changed. -/
theorem byte_set_ne {c : List UInt8} {i j : Nat} {v : UInt8} (h : i ≠ j) :
    byte (c.set i v) j = byte c j := by
  simp [byte, List.getElem?_set_ne h]

theorem byte_set_eq {c : List UInt8} {i : Nat} {v : UInt8} (h : i < c.length) :
    byte (c.set i v) i = v := by
  simp [byte, h]

/-- A byte outside the range that is copied to is not changed. -/
theorem byte_copyBytes {c src : List UInt8} {i j n : Nat} (h : j < i ∨ i + n ≤ j) :
    byte (copyBytes c i src n) j = byte c j := by
  induction n with
  | zero => rfl
  | succ n ih => rw [copyBytes, byte_set_ne (by omega), ih (by omega)]

/-- A byte outside a 32-bit field is not changed by setting the field. -/
theorem byte_scsiSetUint32 {c : List UInt8} {i j : Nat} {v : UInt32} (h : j < i ∨ i + 4 ≤ j) :
    byte (scsiSetUint32 c i v) j = byte c j := by
  unfold scsiSetUint32
  rw [byte_set_ne (by omega), byte_set_ne (by omega), byte_set_ne (by omega),
    byte_set_ne (by omega)]

/-- A byte outside a 16-bit field is not changed by setting the field. -/
theorem byte_scsiSetUint16 {c : List UInt8} {i j : Nat} {v : UInt16} (h : j < i ∨ i + 2 ≤ j) :
    byte (scsiSetUint16 c i v) j = byte c j := by
  unfold scsiSetUint16
  rw [byte_set_ne (by omega), byte_set_ne (by omega)]

/-- Shifting a byte in at the low end of a word that has room for it. -/
theorem toNat_shift_or {x : UInt32} {y : UInt8} (h : x.toNat < 2 ^ 24) :
    ((x <<< 8) ||| y.toUInt32).toNat = x.toNat * 256 + y.toNat := by
  have hy : y.toNat < 2 ^ 8 := y.toNat_lt
  have hx : x.toNat <<< 8 % 2 ^ 32 = x.toNat <<< 8 := by
    rw [Nat.shiftLeft_eq]; omega
  have hor := Nat.shiftLeft_add_eq_or_of_lt hy x.toNat
  simp only [UInt32.toNat_or, UInt32.toNat_shiftLeft, UInt8.toNat_toUInt32]
  rw [show (8 : UInt32).toNat % 32 = 8 from rfl, hx, ← hor, Nat.shiftLeft_eq]

/-- A 32-bit field is the number its four bytes are the digits of. -/
theorem toNat_scsiGetUint32 (c : List UInt8) (i : Nat) :
    (scsiGetUint32 c i).toNat = (((byte c i).toNat * 256 + (byte c (i + 1)).toNat) * 256 +
      (byte c (i + 2)).toNat) * 256 + (byte c (i + 3)).toNat := by
  have h0 := (byte c i).toNat_lt
  have h1 := (byte c (i + 1)).toNat_lt
  have h2 := (byte c (i + 2)).toNat_lt
  have e0 : ((byte c i).toUInt32).toNat = (byte c i).toNat := by simp
  have e1 := toNat_shift_or (x := (byte c i).toUInt32) (y := byte c (i + 1)) (by omega)
  have e2 := toNat_shift_or (x := (byte c i).toUInt32 <<< 8 ||| (byte c (i + 1)).toUInt32)
    (y := byte c (i + 2)) (by omega)
  have e3 := toNat_shift_or (x := ((byte c i).toUInt32 <<< 8 ||| (byte c (i + 1)).toUInt32) <<< 8
    ||| (byte c (i + 2)).toUInt32) (y := byte c (i + 3)) (by omega)
  rw [scsiGetUint32, e3, e2, e1, e0]

/-- A 32-bit field that was set is read back. -/
theorem scsiGetUint32_set {c : List UInt8} {i : Nat} {v : UInt32} (h : i + 4 ≤ c.length) :
    scsiGetUint32 (scsiSetUint32 c i v) i = v := by
  have h0 : byte (scsiSetUint32 c i v) i = (v >>> 24).toUInt8 := by
    unfold scsiSetUint32
    rw [byte_set_ne (by omega), byte_set_ne (by omega), byte_set_ne (by omega),
      byte_set_eq (by omega)]
  have h1 : byte (scsiSetUint32 c i v) (i + 1) = (v >>> 16).toUInt8 := by
    unfold scsiSetUint32
    rw [byte_set_ne (by omega), byte_set_ne (by omega), byte_set_eq (by simp; omega)]
  have h2 : byte (scsiSetUint32 c i v) (i + 2) = (v >>> 8).toUInt8 := by
    unfold scsiSetUint32
    rw [byte_set_ne (by omega), byte_set_eq (by simp; omega)]
  have h3 : byte (scsiSetUint32 c i v) (i + 3) = v.toUInt8 := by
    unfold scsiSetUint32
    rw [byte_set_eq (by simp; omega)]
  apply UInt32.toNat_inj.1
  have hv := v.toNat_lt
  rw [toNat_scsiGetUint32, h0, h1, h2, h3]
  simp only [UInt32.toNat_toUInt8, UInt32.toNat_shiftRight, Nat.shiftRight_eq_div_pow]
  simp
  omega

/-- The last of two writes of a 32-bit field counts. -/
theorem scsiSetUint32_set (c : List UInt8) (i : Nat) (v v' : UInt32) :
    scsiSetUint32 (scsiSetUint32 c i v) i v' = scsiSetUint32 c i v' := by
  unfold scsiSetUint32
  apply List.ext_getElem?
  intro j
  simp only [List.getElem?_set, List.length_set]
  grind

/-- A 32-bit field is not changed by setting a 32-bit field that does not overlap it. -/
theorem scsiGetUint32_setUint32 {c : List UInt8} {i j : Nat} {v : UInt32}
    (h : j + 4 ≤ i ∨ i + 4 ≤ j) : scsiGetUint32 (scsiSetUint32 c i v) j = scsiGetUint32 c j := by
  unfold scsiGetUint32
  rw [byte_scsiSetUint32 (by omega), byte_scsiSetUint32 (by omega),
    byte_scsiSetUint32 (by omega), byte_scsiSetUint32 (by omega)]

/-- A 32-bit field is not changed by setting a 16-bit field that does not overlap it. -/
theorem scsiGetUint32_setUint16 {c : List UInt8} {i j : Nat} {v : UInt16}
    (h : j + 4 ≤ i ∨ i + 2 ≤ j) : scsiGetUint32 (scsiSetUint16 c i v) j = scsiGetUint32 c j := by
  unfold scsiGetUint32
  rw [byte_scsiSetUint16 (by omega), byte_scsiSetUint16 (by omega),
    byte_scsiSetUint16 (by omega), byte_scsiSetUint16 (by omega)]

/-- A 32-bit field is not changed by copying bytes past it. -/
theorem scsiGetUint32_copyBytes {c src : List UInt8} {i j n : Nat} (h : j + 4 ≤ i ∨ i + n ≤ j) :
    scsiGetUint32 (copyBytes c i src n) j = scsiGetUint32 c j := by
  unfold scsiGetUint32
  rw [byte_copyBytes (by omega), byte_copyBytes (by omega), byte_copyBytes (by omega),
    byte_copyBytes (by omega)]

/-- A 32-bit field is not changed by setting a byte outside it. -/
theorem scsiGetUint32_setByte {c : List UInt8} {i j : Nat} {v : UInt8}
    (h : i < j ∨ j + 4 ≤ i) : scsiGetUint32 (c.set i v) j = scsiGetUint32 c j := by
  unfold scsiGetUint32
  rw [byte_set_ne (by omega), byte_set_ne (by omega), byte_set_ne (by omega),
    byte_set_ne (by omega)]

end Libiscsi
