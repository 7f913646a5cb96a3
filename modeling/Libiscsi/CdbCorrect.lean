import Libiscsi.Cdb
import Mathlib.Tactic.IntervalCases

/-!
# What `scsi_cdb_unmarshall` finds in a CDB

A field of a CDB that a builder set is read back when the argument fits the field. The decoded
structures have fields of their own widths, and those of WRITE(16) and WRITE ATOMIC(16) are too
narrow for the logical block address (`cdb_recovered_iff`).
-/

namespace Libiscsi

/-! ## Fields of a byte buffer -/

/-- A 16-bit field that was set is read back. -/
theorem scsiGetUint16_set {c : List UInt8} {i : Nat} {v : UInt16} (h : i + 2 ≤ c.length) :
    scsiGetUint16 (scsiSetUint16 c i v) i = v := by
  have h0 : byte (scsiSetUint16 c i v) i = (v >>> 8).toUInt8 := by
    unfold scsiSetUint16
    rw [byte_set_ne (by omega), byte_set_eq (by omega)]
  have h1 : byte (scsiSetUint16 c i v) (i + 1) = v.toUInt8 := by
    unfold scsiSetUint16
    rw [byte_set_eq (by simp; omega)]
  have hv := v.toNat_lt
  unfold scsiGetUint16
  rw [h0, h1]
  apply UInt16.toNat_inj.1
  have hor := Nat.shiftLeft_add_eq_or_of_lt (b := v.toNat % 256) (i := 8)
    (Nat.mod_lt _ (by decide)) (v.toNat / 256)
  simp only [UInt16.toNat_or, UInt16.toNat_shiftLeft, UInt8.toNat_toUInt16, UInt16.toNat_toUInt8,
    UInt16.toNat_shiftRight, Nat.shiftRight_eq_div_pow, Nat.shiftLeft_eq] at hor ⊢
  simp only [UInt16.reduceToNat, Nat.reducePow, Nat.reduceMod] at hor ⊢
  rw [Nat.mod_eq_of_lt (by omega : v.toNat / 256 < 256), Nat.mod_eq_of_lt (by omega), ← hor]
  omega

/-- A 16-bit field is not changed by setting a byte outside it. -/
theorem scsiGetUint16_setByte {c : List UInt8} {i j : Nat} {v : UInt8} (h : i < j ∨ j + 2 ≤ i) :
    scsiGetUint16 (c.set i v) j = scsiGetUint16 c j := by
  unfold scsiGetUint16
  rw [byte_set_ne (by omega), byte_set_ne (by omega)]

/-- A 64-bit field is not changed by setting a byte outside it. -/
theorem scsiGetUint64_setByte {c : List UInt8} {i j : Nat} {v : UInt8} (h : i < j ∨ j + 8 ≤ i) :
    scsiGetUint64 (c.set i v) j = scsiGetUint64 c j := by
  unfold scsiGetUint64
  rw [scsiGetUint32_setByte (by omega), scsiGetUint32_setByte (by omega)]

/-- A 64-bit number is made up of its two halves. -/
theorem uint64_halves (v : UInt64) :
    ((v >>> 32).toUInt32.toUInt64 <<< 32) ||| (v &&& 0xffffffff).toUInt32.toUInt64 = v := by
  have hv := v.toNat_lt
  apply UInt64.toNat_inj.1
  have hand : v.toNat &&& 4294967295 = v.toNat % 2 ^ 32 := Nat.and_two_pow_sub_one_eq_mod _ 32
  have hor := Nat.shiftLeft_add_eq_or_of_lt (b := v.toNat % 2 ^ 32) (i := 32)
    (Nat.mod_lt _ (by decide)) (v.toNat / 2 ^ 32)
  simp only [UInt64.toNat_or, UInt64.toNat_shiftLeft, UInt32.toNat_toUInt64, UInt64.toNat_toUInt32,
    UInt64.toNat_shiftRight, UInt64.toNat_and, Nat.shiftRight_eq_div_pow, Nat.shiftLeft_eq] at hor ⊢
  simp only [UInt64.reduceToNat, Nat.reducePow, Nat.reduceMod, hand] at hor ⊢
  rw [Nat.mod_mod, Nat.mod_eq_of_lt (by omega : v.toNat / 4294967296 < 4294967296),
    Nat.mod_eq_of_lt (by omega), ← hor]
  omega

/-! ## The fields of a CDB -/

section
variable {size : Nat} {opcode flags : UInt8}

@[simp] theorem length_startCdb : (startCdb size opcode flags).length = size := by
  simp [startCdb]

theorem byte_startCdb_zero (h : 0 < size) : byte (startCdb size opcode flags) 0 = opcode := by
  unfold startCdb
  rw [byte_set_ne (by omega), byte_set_eq (by simpa)]

theorem byte_startCdb_one (h : 1 < size) : byte (startCdb size opcode flags) 1 = flags := by
  unfold startCdb
  rw [byte_set_eq (by simpa)]

theorem byte_startCdb {i : Nat} (h : 2 ≤ i) : byte (startCdb size opcode flags) i = 0 := by
  unfold startCdb
  rw [byte_set_ne (by omega), byte_set_ne (by omega)]
  simp only [byte, List.getD_eq_getElem?_getD, List.getElem?_replicate]
  split <;> rfl

end

/-- `!!v`. -/
def boolByte (v : UInt32) : UInt8 := if v ≠ 0 then 1 else 0

/-- A number below eight is one of eight. -/
theorem uint32_lt_cases {n : Nat} {v : UInt32} (h : v.toNat < n) :
    ∃ k : Fin n, v = UInt32.ofNat k :=
  ⟨⟨v.toNat, h⟩, by simp⟩

/-- The flags of a command that reads or writes are read back. -/
theorem rwFlags_spec {cdb : List UInt8} {protect dpo fua fuaNv : UInt32} (hp : protect.toNat < 8)
    (h : byte cdb 1 = rwFlags protect dpo fua fuaNv) :
    cdbProtect cdb = protect.toUInt8 ∧ cdbFlag cdb 0x10 = boolByte dpo ∧
      cdbFlag cdb 0x08 = boolByte fua ∧ cdbFlag cdb 0x02 = boolByte fuaNv := by
  obtain ⟨k, rfl⟩ := uint32_lt_cases hp
  unfold cdbProtect cdbFlag
  rw [h]
  unfold rwFlags boolByte
  clear h hp
  revert k
  by_cases hd : dpo = 0 <;> by_cases hf : fua = 0 <;> by_cases hn : fuaNv = 0 <;>
    simp only [hd, hf, hn, ne_eq, not_true_eq_false, not_false_eq_true, if_true, if_false] <;>
    decide

/-- The flags of a command that verifies are read back. -/
theorem verifyFlags_spec {cdb : List UInt8} {protect dpo bytchk : UInt32}
    (hp : protect.toNat < 8) (h : byte cdb 1 = verifyFlags protect dpo bytchk) :
    cdbProtect cdb = protect.toUInt8 ∧ cdbFlag cdb 0x10 = boolByte dpo ∧
      cdbFlag cdb 0x02 = boolByte bytchk := by
  obtain ⟨k, rfl⟩ := uint32_lt_cases hp
  unfold cdbProtect cdbFlag
  rw [h]
  unfold verifyFlags boolByte
  clear h hp
  revert k
  by_cases hd : dpo = 0 <;> by_cases hb : bytchk = 0 <;>
    simp only [hd, hb, ne_eq, not_true_eq_false, not_false_eq_true, if_true, if_false] <;>
    decide

/-- The group number is read back from a byte that was zero. -/
theorem setGroup_spec {cdb : List UInt8} {i : Nat} {group : UInt32} (hi : i < cdb.length)
    (hzero : byte cdb i = 0) (hg : group.toNat < 32) :
    byte (setGroup cdb i group) i &&& 0x1f = group.toUInt8 := by
  obtain ⟨k, rfl⟩ := uint32_lt_cases hg
  unfold setGroup
  rw [byte_set_eq hi, hzero]
  clear hg
  revert k
  decide

section
variable {c : List UInt8} {lba blocks group : UInt32} {lba64 : UInt64} {i j : Nat}

@[simp] theorem length_setGroup : (setGroup c i group).length = c.length := by
  simp [setGroup]

@[simp] theorem length_setBlocks10 : (setBlocks10 c lba blocks).length = c.length := by
  simp [setBlocks10]

@[simp] theorem length_setBlocks12 : (setBlocks12 c lba blocks).length = c.length := by
  simp [setBlocks12]

@[simp] theorem length_setLba16 : (setLba16 c lba64).length = c.length := by
  simp [setLba16]

@[simp] theorem length_setBlocks16 : (setBlocks16 c lba64 blocks).length = c.length := by
  simp [setBlocks16]

/-- The group number changes its own byte only. -/
theorem byte_setGroup (h : i ≠ j) : byte (setGroup c i group) j = byte c j :=
  byte_set_ne h

theorem byte_setBlocks10 (h : j < 2 ∨ j = 6 ∨ 9 ≤ j) :
    byte (setBlocks10 c lba blocks) j = byte c j := by
  unfold setBlocks10
  rw [byte_scsiSetUint16 (by omega), byte_scsiSetUint32 (by omega)]

theorem byte_setBlocks12 (h : j < 2 ∨ 10 ≤ j) :
    byte (setBlocks12 c lba blocks) j = byte c j := by
  unfold setBlocks12
  rw [byte_scsiSetUint32 (by omega), byte_scsiSetUint32 (by omega)]

theorem byte_setLba16 (h : j < 2 ∨ 10 ≤ j) : byte (setLba16 c lba64) j = byte c j := by
  unfold setLba16
  rw [byte_scsiSetUint32 (by omega), byte_scsiSetUint32 (by omega)]

theorem byte_setBlocks16 (h : j < 2 ∨ 14 ≤ j) :
    byte (setBlocks16 c lba64 blocks) j = byte c j := by
  unfold setBlocks16
  rw [byte_scsiSetUint32 (by omega), byte_setLba16 (by omega)]

/-- The blocks of a CDB of ten bytes. -/
theorem setBlocks10_spec (lba blocks : UInt32) (hc : c.length = 10) :
    scsiGetUint32 (setBlocks10 c lba blocks) 2 = lba ∧
      scsiGetUint16 (setBlocks10 c lba blocks) 7 = blocks.toUInt16 := by
  unfold setBlocks10
  rw [scsiGetUint32_setUint16 (by omega), scsiGetUint32_set (by omega),
    scsiGetUint16_set (by simp; omega)]
  exact ⟨rfl, rfl⟩

/-- The blocks of a CDB of twelve bytes. -/
theorem setBlocks12_spec (lba blocks : UInt32) (hc : c.length = 12) :
    scsiGetUint32 (setBlocks12 c lba blocks) 2 = lba ∧
      scsiGetUint32 (setBlocks12 c lba blocks) 6 = blocks := by
  unfold setBlocks12
  rw [scsiGetUint32_setUint32 (by omega), scsiGetUint32_set (by omega),
    scsiGetUint32_set (by simp; omega)]
  exact ⟨rfl, rfl⟩

/-- The logical block address of a CDB of sixteen bytes. -/
theorem setLba16_spec (hc : c.length = 16) : scsiGetUint64 (setLba16 c lba64) 2 = lba64 := by
  unfold setLba16 scsiGetUint64
  rw [scsiGetUint32_setUint32 (by omega), scsiGetUint32_set (by omega),
    scsiGetUint32_set (by simp; omega)]
  exact uint64_halves lba64

/-- A 64-bit field is not changed by setting a 32-bit field after it. -/
theorem scsiGetUint64_setUint32 {v : UInt32} (h : j + 8 ≤ i) :
    scsiGetUint64 (scsiSetUint32 c i v) j = scsiGetUint64 c j := by
  unfold scsiGetUint64
  rw [scsiGetUint32_setUint32 (by omega), scsiGetUint32_setUint32 (by omega)]

/-- A 64-bit field is not changed by setting a 16-bit field after it. -/
theorem scsiGetUint64_setUint16 {v : UInt16} (h : j + 8 ≤ i) :
    scsiGetUint64 (scsiSetUint16 c i v) j = scsiGetUint64 c j := by
  unfold scsiGetUint64
  rw [scsiGetUint32_setUint16 (by omega), scsiGetUint32_setUint16 (by omega)]

/-- The blocks of a CDB of sixteen bytes. -/
theorem setBlocks16_spec (lba64 : UInt64) (blocks : UInt32) (hc : c.length = 16) :
    scsiGetUint64 (setBlocks16 c lba64 blocks) 2 = lba64 ∧
      scsiGetUint32 (setBlocks16 c lba64 blocks) 10 = blocks := by
  unfold setBlocks16
  rw [scsiGetUint64_setUint32 (by omega), setLba16_spec hc, scsiGetUint32_set (by simp; omega)]
  exact ⟨rfl, rfl⟩

end

/-- The number of blocks of a 16-bit field that it fits. -/
theorem toNat_toUInt16 {v : UInt32} (h : v.toNat < 2 ^ 16) : v.toUInt16.toNat = v.toNat := by
  rw [UInt32.toNat_toUInt16, Nat.mod_eq_of_lt h]

/-! ## Requests -/

/-- A call of one of the builders. -/
inductive CdbRequest where
  | read6 (lba xferlen blocksize : UInt32)
  | read10 (lba xferlen blocksize rdprotect dpo fua fuaNv group : UInt32)
  | read12 (lba xferlen blocksize rdprotect dpo fua fuaNv group : UInt32)
  | read16 (lba : UInt64) (xferlen blocksize rdprotect dpo fua fuaNv group : UInt32)
  | write10 (lba xferlen blocksize wrprotect dpo fua fuaNv group : UInt32)
  | write12 (lba xferlen blocksize wrprotect dpo fua fuaNv group : UInt32)
  | write16 (lba : UInt64) (xferlen blocksize wrprotect dpo fua fuaNv group : UInt32)
  | writeatomic16 (lba : UInt64) (xferlen blocksize wrprotect dpo fua group : UInt32)
  | verify10 (lba xferlen vprotect dpo bytchk blocksize : UInt32)
  | verify12 (lba xferlen vprotect dpo bytchk blocksize : UInt32)
  | verify16 (lba : UInt64) (xferlen vprotect dpo bytchk blocksize : UInt32)

namespace CdbRequest

/-- The task that the builder returns. -/
def build : CdbRequest → Option ScsiTask
  | read6 lba x bs => scsiCdbRead6 lba x bs
  | read10 lba x bs p d f n g => some (scsiCdbRead10 lba x bs p d f n g)
  | read12 lba x bs p d f n g => some (scsiCdbRead12 lba x bs p d f n g)
  | read16 lba x bs p d f n g => some (scsiCdbRead16 lba x bs p d f n g)
  | write10 lba x bs p d f n g => some (scsiCdbWrite10 lba x bs p d f n g)
  | write12 lba x bs p d f n g => some (scsiCdbWrite12 lba x bs p d f n g)
  | write16 lba x bs p d f n g => some (scsiCdbWrite16 lba x bs p d f n g)
  | writeatomic16 lba x bs p d f g => some (scsiCdbWriteatomic16 lba x bs p d f g)
  | verify10 lba x p d b bs => some (scsiCdbVerify10 lba x p d b bs)
  | verify12 lba x p d b bs => some (scsiCdbVerify12 lba x p d b bs)
  | verify16 lba x p d b bs => some (scsiCdbVerify16 lba x p d b bs)

/-- The operation code of the command. -/
def opcode : CdbRequest → UInt8
  | read6 .. => 0x08
  | read10 .. => 0x28
  | read12 .. => 0xa8
  | read16 .. => 0x88
  | write10 .. => 0x2a
  | write12 .. => 0xaa
  | write16 .. => 0x8a
  | writeatomic16 .. => 0x9c
  | verify10 .. => 0x2f
  | verify12 .. => 0xaf
  | verify16 .. => 0x8f

/-- The arguments are within the widths of their fields in the CDB. A logical block address has
the width of its argument but for READ(6), and so has a number of blocks of 32 bits. -/
def Fits : CdbRequest → Prop
  | read6 lba x bs => bs ≠ 0 ∧ lba.toNat < 2 ^ 21 ∧ (x / bs).toNat ≤ 256
  | read10 _ x bs p _ _ _ g | write10 _ x bs p _ _ _ g =>
    bs ≠ 0 ∧ (x / bs).toNat < 2 ^ 16 ∧ p.toNat < 8 ∧ g.toNat < 32
  | read12 _ _ bs p _ _ _ g | write12 _ _ bs p _ _ _ g => bs ≠ 0 ∧ p.toNat < 8 ∧ g.toNat < 32
  | read16 _ _ bs p _ _ _ g | write16 _ _ bs p _ _ _ g => bs ≠ 0 ∧ p.toNat < 8 ∧ g.toNat < 32
  | writeatomic16 _ x bs p _ _ g =>
    bs ≠ 0 ∧ (x / bs).toNat < 2 ^ 16 ∧ p.toNat < 8 ∧ g.toNat < 32
  | verify10 _ x p _ _ bs => bs ≠ 0 ∧ (x / bs).toNat < 2 ^ 16 ∧ p.toNat < 8
  | verify12 _ _ p _ _ bs => bs ≠ 0 ∧ p.toNat < 8
  | verify16 _ _ p _ _ bs => bs ≠ 0 ∧ p.toNat < 8

/-- A decoded structure holds the operation code and every argument of the builder: an `int` that
is a flag as a boolean, and the length as a number of blocks. In READ(6), 0 stands for 256
blocks. -/
def Recovered (r : CdbRequest) (s : ScsiCdb) : Prop :=
  match r, s with
  | read6 lba x bs, .read6 s =>
    s.opcode = r.opcode ∧ s.lba = lba ∧ s.transferLength.toNat = (x / bs).toNat % 256
  | read10 lba x bs p d f n g, .read10 s =>
    s.opcode = r.opcode ∧ s.lba = lba ∧ s.transferLength.toNat = (x / bs).toNat ∧
      s.rdprotect = p.toUInt8 ∧ s.dpo = boolByte d ∧ s.fua = boolByte f ∧ s.fuaNv = boolByte n ∧
      s.group = g.toUInt8
  | read12 lba x bs p d f n g, .read12 s =>
    s.opcode = r.opcode ∧ s.lba = lba ∧ s.transferLength = x / bs ∧
      s.rdprotect = p.toUInt8 ∧ s.dpo = boolByte d ∧ s.fua = boolByte f ∧ s.fuaNv = boolByte n ∧
      s.group = g.toUInt8
  | read16 lba x bs p d f n g, .read16 s =>
    s.opcode = r.opcode ∧ s.lba = lba ∧ s.transferLength = x / bs ∧
      s.rdprotect = p.toUInt8 ∧ s.dpo = boolByte d ∧ s.fua = boolByte f ∧ s.fuaNv = boolByte n ∧
      s.group = g.toUInt8
  | write10 lba x bs p d f n g, .write10 s =>
    s.opcode = r.opcode ∧ s.lba = lba ∧ s.transferLength.toNat = (x / bs).toNat ∧
      s.wrprotect = p.toUInt8 ∧ s.dpo = boolByte d ∧ s.fua = boolByte f ∧ s.fuaNv = boolByte n ∧
      s.group = g.toUInt8
  | write12 lba x bs p d f n g, .write12 s =>
    s.opcode = r.opcode ∧ s.lba = lba ∧ s.transferLength = x / bs ∧
      s.wrprotect = p.toUInt8 ∧ s.dpo = boolByte d ∧ s.fua = boolByte f ∧ s.fuaNv = boolByte n ∧
      s.group = g.toUInt8
  | write16 lba x bs p d f n g, .write16 s =>
    s.opcode = r.opcode ∧ s.lba.toNat = lba.toNat ∧ s.transferLength = x / bs ∧
      s.wrprotect = p.toUInt8 ∧ s.dpo = boolByte d ∧ s.fua = boolByte f ∧ s.fuaNv = boolByte n ∧
      s.group = g.toUInt8
  | writeatomic16 lba x bs p d f g, .writeatomic16 s =>
    s.opcode = r.opcode ∧ s.lba.toNat = lba.toNat ∧ s.transferLength.toNat = (x / bs).toNat ∧
      s.wrprotect = p.toUInt8 ∧ s.dpo = boolByte d ∧ s.fua = boolByte f ∧ s.group = g.toUInt8
  | verify10 lba x p d b bs, .verify10 s =>
    s.opcode = r.opcode ∧ s.lba = lba ∧ s.verificationLength.toNat = (x / bs).toNat ∧
      s.vrprotect = p.toUInt8 ∧ s.dpo = boolByte d ∧ s.bytchk = boolByte b
  | verify12 lba x p d b bs, .verify12 s =>
    s.opcode = r.opcode ∧ s.lba = lba ∧ s.verificationLength = x / bs ∧
      s.vrprotect = p.toUInt8 ∧ s.dpo = boolByte d ∧ s.bytchk = boolByte b
  | verify16 lba x p d b bs, .verify16 s =>
    s.opcode = r.opcode ∧ s.lba = lba ∧ s.verificationLength = x / bs ∧
      s.vrprotect = p.toUInt8 ∧ s.dpo = boolByte d ∧ s.bytchk = boolByte b
  | _, _ => False

/-- The logical block address fits the field `lba` of the structure that the CDB is decoded to. -/
def LbaFits : CdbRequest → Prop
  | write16 lba .. | writeatomic16 lba .. => lba.toNat < 2 ^ 32
  | _ => True

/-- What is built for the request is decoded to a structure that holds the request. -/
def RoundTrips (r : CdbRequest) : Prop :=
  ∃ task s, r.build = some task ∧ scsiCdbUnmarshall task r.opcode = some s ∧ r.Recovered s

end CdbRequest

/-! ## Every builder and its decoder -/

/-- The CDB of a built task. -/
@[simp] theorem transferTask_cdb (cdb : List UInt8) (dir : XferDir) (x : UInt32) :
    (transferTask cdb dir x).cdb = cdb := rfl

@[simp] theorem verifyTask_cdb (cdb : List UInt8) (x bytchk : UInt32) :
    (verifyTask cdb x bytchk).cdb = cdb := by
  unfold verifyTask
  split <;> rfl

/-- The fields of a CDB of ten bytes that reads or writes. -/
theorem cdb10_spec {op : UInt8} {lba blocks p d f n g : UInt32} {cdb : List UInt8}
    (hcdb : cdb = setGroup (setBlocks10 (startCdb 10 op (rwFlags p d f n)) lba blocks) 6 g)
    (hp : p.toNat < 8) (hg : g.toNat < 32) (hb : blocks.toNat < 2 ^ 16) :
    byte cdb 0 = op ∧ scsiGetUint32 cdb 2 = lba ∧ (scsiGetUint16 cdb 7).toNat = blocks.toNat ∧
      cdbProtect cdb = p.toUInt8 ∧ cdbFlag cdb 0x10 = boolByte d ∧
      cdbFlag cdb 0x08 = boolByte f ∧ cdbFlag cdb 0x02 = boolByte n ∧
      byte cdb 6 &&& 0x1f = g.toUInt8 := by
  have hblocks := setBlocks10_spec (c := startCdb 10 op (rwFlags p d f n)) lba blocks (by simp)
  have h1 : byte cdb 1 = rwFlags p d f n := by
    rw [hcdb, byte_setGroup (by decide), byte_setBlocks10 (by decide),
      byte_startCdb_one (by decide)]
  obtain ⟨hprot, hdpo, hfua, hnv⟩ := rwFlags_spec hp h1
  refine ⟨?_, ?_, ?_, hprot, hdpo, hfua, hnv, ?_⟩
  · rw [hcdb, byte_setGroup (by decide), byte_setBlocks10 (by decide),
      byte_startCdb_zero (by decide)]
  · rw [hcdb, setGroup, scsiGetUint32_setByte (by decide)]
    exact hblocks.1
  · rw [hcdb, setGroup, scsiGetUint16_setByte (by decide), hblocks.2]
    exact toNat_toUInt16 hb
  · rw [hcdb]
    refine setGroup_spec (by simp) ?_ hg
    rw [byte_setBlocks10 (by decide), byte_startCdb (by decide)]

/-- The fields of a CDB of twelve bytes that reads or writes. -/
theorem cdb12_spec {op : UInt8} {lba blocks p d f n g : UInt32} {cdb : List UInt8}
    (hcdb : cdb = setGroup (setBlocks12 (startCdb 12 op (rwFlags p d f n)) lba blocks) 10 g)
    (hp : p.toNat < 8) (hg : g.toNat < 32) :
    byte cdb 0 = op ∧ scsiGetUint32 cdb 2 = lba ∧ scsiGetUint32 cdb 6 = blocks ∧
      cdbProtect cdb = p.toUInt8 ∧ cdbFlag cdb 0x10 = boolByte d ∧
      cdbFlag cdb 0x08 = boolByte f ∧ cdbFlag cdb 0x02 = boolByte n ∧
      byte cdb 10 &&& 0x1f = g.toUInt8 := by
  have hblocks := setBlocks12_spec (c := startCdb 12 op (rwFlags p d f n)) lba blocks (by simp)
  have h1 : byte cdb 1 = rwFlags p d f n := by
    rw [hcdb, byte_setGroup (by decide), byte_setBlocks12 (by decide),
      byte_startCdb_one (by decide)]
  obtain ⟨hprot, hdpo, hfua, hnv⟩ := rwFlags_spec hp h1
  refine ⟨?_, ?_, ?_, hprot, hdpo, hfua, hnv, ?_⟩
  · rw [hcdb, byte_setGroup (by decide), byte_setBlocks12 (by decide),
      byte_startCdb_zero (by decide)]
  · rw [hcdb, setGroup, scsiGetUint32_setByte (by decide)]
    exact hblocks.1
  · rw [hcdb, setGroup, scsiGetUint32_setByte (by decide)]
    exact hblocks.2
  · rw [hcdb]
    refine setGroup_spec (by simp) ?_ hg
    rw [byte_setBlocks12 (by decide), byte_startCdb (by decide)]

/-- The fields of a CDB of sixteen bytes that reads or writes. -/
theorem cdb16_spec {op : UInt8} {lba : UInt64} {blocks p d f n g : UInt32} {cdb : List UInt8}
    (hcdb : cdb = setGroup (setBlocks16 (startCdb 16 op (rwFlags p d f n)) lba blocks) 14 g)
    (hp : p.toNat < 8) (hg : g.toNat < 32) :
    byte cdb 0 = op ∧ scsiGetUint64 cdb 2 = lba ∧ scsiGetUint32 cdb 10 = blocks ∧
      cdbProtect cdb = p.toUInt8 ∧ cdbFlag cdb 0x10 = boolByte d ∧
      cdbFlag cdb 0x08 = boolByte f ∧ cdbFlag cdb 0x02 = boolByte n ∧
      byte cdb 14 &&& 0x1f = g.toUInt8 := by
  have hblocks := setBlocks16_spec (c := startCdb 16 op (rwFlags p d f n)) lba blocks (by simp)
  have h1 : byte cdb 1 = rwFlags p d f n := by
    rw [hcdb, byte_setGroup (by decide), byte_setBlocks16 (by decide),
      byte_startCdb_one (by decide)]
  obtain ⟨hprot, hdpo, hfua, hnv⟩ := rwFlags_spec hp h1
  refine ⟨?_, ?_, ?_, hprot, hdpo, hfua, hnv, ?_⟩
  · rw [hcdb, byte_setGroup (by decide), byte_setBlocks16 (by decide),
      byte_startCdb_zero (by decide)]
  · rw [hcdb, setGroup, scsiGetUint64_setByte (by decide)]
    exact hblocks.1
  · rw [hcdb, setGroup, scsiGetUint32_setByte (by decide)]
    exact hblocks.2
  · rw [hcdb]
    refine setGroup_spec (by simp) ?_ hg
    rw [byte_setBlocks16 (by decide), byte_startCdb (by decide)]

/-- The fields of a CDB of WRITE ATOMIC(16). -/
theorem cdbAtomic_spec {op : UInt8} {lba : UInt64} {blocks p d f g : UInt32} {cdb : List UInt8}
    (hcdb : cdb = setGroup (scsiSetUint16 (setLba16 (startCdb 16 op (rwFlags p d f 0)) lba) 12
      blocks.toUInt16) 14 g)
    (hp : p.toNat < 8) (hg : g.toNat < 32) (hb : blocks.toNat < 2 ^ 16) :
    byte cdb 0 = op ∧ scsiGetUint64 cdb 2 = lba ∧ (scsiGetUint16 cdb 12).toNat = blocks.toNat ∧
      cdbProtect cdb = p.toUInt8 ∧ cdbFlag cdb 0x10 = boolByte d ∧
      cdbFlag cdb 0x08 = boolByte f ∧ byte cdb 14 &&& 0x1f = g.toUInt8 := by
  have h1 : byte cdb 1 = rwFlags p d f 0 := by
    rw [hcdb, byte_setGroup (by decide), byte_scsiSetUint16 (by decide),
      byte_setLba16 (by decide), byte_startCdb_one (by decide)]
  obtain ⟨hprot, hdpo, hfua, -⟩ := rwFlags_spec hp h1
  refine ⟨?_, ?_, ?_, hprot, hdpo, hfua, ?_⟩
  · rw [hcdb, byte_setGroup (by decide), byte_scsiSetUint16 (by decide),
      byte_setLba16 (by decide), byte_startCdb_zero (by decide)]
  · rw [hcdb, setGroup, scsiGetUint64_setByte (by decide), scsiGetUint64_setUint16 (by decide)]
    exact setLba16_spec (by simp)
  · rw [hcdb, setGroup, scsiGetUint16_setByte (by decide), scsiGetUint16_set (by simp)]
    exact toNat_toUInt16 hb
  · rw [hcdb]
    refine setGroup_spec (by simp) ?_ hg
    rw [byte_scsiSetUint16 (by decide), byte_setLba16 (by decide), byte_startCdb (by decide)]

/-- The flags and the operation code of a CDB that verifies. -/
theorem cdbVerify_spec {size : Nat} {op : UInt8} {p d b : UInt32} {cdb : List UInt8}
    (hsize : 1 < size) (h0 : byte cdb 0 = byte (startCdb size op (verifyFlags p d b)) 0)
    (h1 : byte cdb 1 = byte (startCdb size op (verifyFlags p d b)) 1) (hp : p.toNat < 8) :
    byte cdb 0 = op ∧ cdbProtect cdb = p.toUInt8 ∧ cdbFlag cdb 0x10 = boolByte d ∧
      cdbFlag cdb 0x02 = boolByte b := by
  rw [byte_startCdb_zero (by omega)] at h0
  rw [byte_startCdb_one hsize] at h1
  exact ⟨h0, verifyFlags_spec hp h1⟩

/-- The byte that READ(6) has for the number of blocks. -/
theorem read6Blocks_spec {n : UInt32} (h : n.toNat ≤ 256) :
    ¬n.toInt32 > 256 ∧
      (if n.toInt32 < 256 then (n.toInt32 &&& 0xff).toUInt32.toUInt8 else 0).toNat =
        n.toNat % 256 := by
  obtain ⟨k, rfl⟩ := uint32_lt_cases (Nat.lt_succ_of_le h)
  clear h
  revert k
  decide +kernel

/-- The logical block address of READ(6) is read back, without the operation code before it. -/
theorem read6Lba_spec {c : List UInt8} {lba : UInt32} (hlba : lba.toNat < 2 ^ 21)
    (h0 : byte c 0 = 0x08) (h1 : byte c 1 = ((lba >>> 16) &&& 0x1f).toUInt8)
    (h2 : byte c 2 = ((lba >>> 8) &&& 0xff).toUInt8) (h3 : byte c 3 = (lba &&& 0xff).toUInt8) :
    scsiGetUint32 c 0 &&& 0x001fffff = lba := by
  have mod5 (n : Nat) : n &&& 31 = n % 2 ^ 5 := Nat.and_two_pow_sub_one_eq_mod n 5
  have mod8 (n : Nat) : n &&& 255 = n % 2 ^ 8 := Nat.and_two_pow_sub_one_eq_mod n 8
  have mod21 (n : Nat) : n &&& 2097151 = n % 2 ^ 21 := Nat.and_two_pow_sub_one_eq_mod n 21
  apply UInt32.toNat_inj.1
  rw [UInt32.toNat_and, toNat_scsiGetUint32, h0, h1, h2, h3]
  simp only [UInt32.toNat_toUInt8, UInt32.toNat_and, UInt32.toNat_shiftRight, UInt32.reduceToNat,
    UInt8.reduceToNat, Nat.shiftRight_eq_div_pow, mod5, mod8, mod21, Nat.reduceMod, Nat.reducePow]
  omega

/-- The fields of the CDB of READ(6). -/
theorem cdbRead6_spec {lba x bs : UInt32} (hlba : lba.toNat < 2 ^ 21)
    (hblocks : (x / bs).toNat ≤ 256) :
    ∃ task, scsiCdbRead6 lba x bs = some task ∧ byte task.cdb 0 = 0x08 ∧
      scsiGetUint32 task.cdb 0 &&& 0x001fffff = lba ∧
      (byte task.cdb 4).toNat = (x / bs).toNat % 256 := by
  obtain ⟨hle, hbyte⟩ := read6Blocks_spec hblocks
  have hl : ¬lba > 0x1fffff := by
    rw [gt_iff_lt, UInt32.lt_iff_toNat_lt, show (0x1fffff : UInt32).toNat = 2 ^ 21 - 1 from rfl]
    omega
  unfold scsiCdbRead6
  rw [if_neg hle, if_neg hl]
  refine ⟨_, rfl, ?_, ?_, ?_⟩
  · rw [transferTask_cdb]
    split
    · rw [byte_set_ne (by decide), byte_set_ne (by decide), byte_set_ne (by decide),
        byte_set_ne (by decide), byte_set_eq (by decide)]
    · rw [byte_set_ne (by decide), byte_set_ne (by decide), byte_set_ne (by decide),
        byte_set_eq (by decide)]
  · rw [transferTask_cdb]
    split
    · apply read6Lba_spec hlba <;> simp [byte]
    · apply read6Lba_spec hlba <;> simp [byte]
  · rw [transferTask_cdb, ← hbyte]
    split
    · rw [byte_set_eq (by simp)]
    · rw [byte_set_ne (by decide), byte_set_ne (by decide), byte_set_ne (by decide),
        byte_set_ne (by decide)]
      rfl

/-- The 32-bit field of a decoded structure holds a logical block address that fits it. -/
theorem toUInt32_toNat_eq_iff (v : UInt64) : v.toUInt32.toNat = v.toNat ↔ v.toNat < 2 ^ 32 := by
  rw [UInt64.toNat_toUInt32]
  omega

/-- `scsi_write16_cdb_unmarshall` keeps the low 32 bits of the logical block address. -/
theorem toNat_lba_write16 {cdb : List UInt8} {lba : UInt64} (h : scsiGetUint64 cdb 2 = lba) :
    (scsiWrite16CdbUnmarshall cdb).lba.toNat = lba.toUInt32.toNat := by
  rw [← h]
  rfl

/-- `scsi_writeatomic16_cdb_unmarshall` keeps the low 32 bits of the logical block address. -/
theorem toNat_lba_writeatomic16 {cdb : List UInt8} {lba : UInt64}
    (h : scsiGetUint64 cdb 2 = lba) :
    (scsiWriteatomic16CdbUnmarshall cdb).lba.toNat = lba.toUInt32.toNat := by
  rw [← h]
  rfl

/-- The decoder looks at the CDB of a task that verifies, and at nothing else. -/
theorem scsiCdbUnmarshall_verify (cdb : List UInt8) (op : UInt8) (x bytchk : UInt32) :
    scsiCdbUnmarshall (verifyTask cdb x bytchk) op = scsiCdbUnmarshall { cdb } op := by
  unfold scsiCdbUnmarshall
  rw [verifyTask_cdb]

namespace CdbRequest

/-- **What the builders encode, `scsi_cdb_unmarshall` decodes, as far as its structures are wide
enough**: those of WRITE(16) and WRITE ATOMIC(16) keep 32 of the 64 bits of a logical block
address. -/
theorem roundTrips_iff (r : CdbRequest) (h : r.Fits) : r.RoundTrips ↔ r.LbaFits := by
  cases r with
  | read6 lba x bs =>
    obtain ⟨-, hlba, hblocks⟩ := h
    obtain ⟨task, hbuild, hop, hl, hb⟩ := cdbRead6_spec hlba hblocks
    refine iff_of_true ⟨task, _, hbuild, if_neg (not_not.2 hop), rfl, hl, ?_⟩ trivial
    simpa [scsiRead6CdbUnmarshall] using hb
  | read10 lba x bs p d f n g =>
    obtain ⟨-, hx, hp, hg⟩ := h
    obtain ⟨hop, hl, hb, hfields⟩ := cdb10_spec
      (show (scsiCdbRead10 lba x bs p d f n g).cdb = _ from rfl) hp hg hx
    exact iff_of_true ⟨_, _, rfl, if_neg (not_not.2 hop), rfl, hl, hb, hfields⟩ trivial
  | read12 lba x bs p d f n g =>
    obtain ⟨-, hp, hg⟩ := h
    obtain ⟨hop, hl, hb, hfields⟩ := cdb12_spec
      (show (scsiCdbRead12 lba x bs p d f n g).cdb = _ from rfl) hp hg
    exact iff_of_true ⟨_, _, rfl, if_neg (not_not.2 hop), rfl, hl, hb, hfields⟩ trivial
  | read16 lba x bs p d f n g =>
    obtain ⟨-, hp, hg⟩ := h
    obtain ⟨hop, hl, hb, hfields⟩ := cdb16_spec
      (show (scsiCdbRead16 lba x bs p d f n g).cdb = _ from rfl) hp hg
    exact iff_of_true ⟨_, _, rfl, if_neg (not_not.2 hop), rfl, hl, hb, hfields⟩ trivial
  | write10 lba x bs p d f n g =>
    obtain ⟨-, hx, hp, hg⟩ := h
    obtain ⟨hop, hl, hb, hfields⟩ := cdb10_spec
      (show (scsiCdbWrite10 lba x bs p d f n g).cdb = _ from rfl) hp hg hx
    exact iff_of_true ⟨_, _, rfl, if_neg (not_not.2 hop), rfl, hl, hb, hfields⟩ trivial
  | write12 lba x bs p d f n g =>
    obtain ⟨-, hp, hg⟩ := h
    obtain ⟨hop, hl, hb, hfields⟩ := cdb12_spec
      (show (scsiCdbWrite12 lba x bs p d f n g).cdb = _ from rfl) hp hg
    exact iff_of_true ⟨_, _, rfl, if_neg (not_not.2 hop), rfl, hl, hb, hfields⟩ trivial
  | write16 lba x bs p d f n g =>
    obtain ⟨-, hp, hg⟩ := h
    obtain ⟨hop, hl, hb, hfields⟩ := cdb16_spec
      (show (scsiCdbWrite16 lba x bs p d f n g).cdb = _ from rfl) hp hg
    change (write16 lba x bs p d f n g).RoundTrips ↔ lba.toNat < 2 ^ 32
    rw [← toUInt32_toNat_eq_iff]
    constructor
    · rintro ⟨task, s, hbuild, hs, hr⟩
      obtain rfl := Option.some.inj hbuild
      obtain rfl := Option.some.inj ((if_neg (not_not.2 hop)).symm.trans hs)
      rw [← hr.2.1]
      exact (toNat_lba_write16 hl).symm
    · intro hfit
      exact ⟨_, _, rfl, if_neg (not_not.2 hop), rfl, (toNat_lba_write16 hl).trans hfit, hb,
        hfields⟩
  | writeatomic16 lba x bs p d f g =>
    obtain ⟨-, hx, hp, hg⟩ := h
    obtain ⟨hop, hl, hb, hfields⟩ := cdbAtomic_spec
      (show (scsiCdbWriteatomic16 lba x bs p d f g).cdb = _ from rfl) hp hg hx
    change (writeatomic16 lba x bs p d f g).RoundTrips ↔ lba.toNat < 2 ^ 32
    rw [← toUInt32_toNat_eq_iff]
    constructor
    · rintro ⟨task, s, hbuild, hs, hr⟩
      obtain rfl := Option.some.inj hbuild
      obtain rfl := Option.some.inj ((if_neg (not_not.2 hop)).symm.trans hs)
      rw [← hr.2.1]
      exact (toNat_lba_writeatomic16 hl).symm
    · intro hfit
      exact ⟨_, _, rfl, if_neg (not_not.2 hop), rfl, (toNat_lba_writeatomic16 hl).trans hfit, hb,
        hfields⟩
  | verify10 lba x p d b bs =>
    obtain ⟨-, hx, hp⟩ := h
    have hb := setBlocks10_spec (c := startCdb 10 0x2f (verifyFlags p d b)) lba (x / bs) (by simp)
    obtain ⟨hop, hflags⟩ := cdbVerify_spec (by decide : 1 < 10)
      (show byte (setBlocks10 (startCdb 10 0x2f (verifyFlags p d b)) lba (x / bs)) 0 = _ from
        byte_setBlocks10 (by decide))
      (byte_setBlocks10 (by decide)) hp
    refine iff_of_true ⟨_, _, rfl, (scsiCdbUnmarshall_verify ..).trans (if_neg (not_not.2 hop)),
      rfl, hb.1, (congrArg _ hb.2).trans (toNat_toUInt16 hx), hflags⟩ trivial
  | verify12 lba x p d b bs =>
    obtain ⟨-, hp⟩ := h
    have hb := setBlocks12_spec (c := startCdb 12 0xaf (verifyFlags p d b)) lba (x / bs) (by simp)
    obtain ⟨hop, hflags⟩ := cdbVerify_spec (by decide : 1 < 12)
      (show byte (setBlocks12 (startCdb 12 0xaf (verifyFlags p d b)) lba (x / bs)) 0 = _ from
        byte_setBlocks12 (by decide))
      (byte_setBlocks12 (by decide)) hp
    refine iff_of_true ⟨_, _, rfl,
      (scsiCdbUnmarshall_verify ..).trans (if_neg (not_not.2 hop)), rfl, hb.1, hb.2, hflags⟩ trivial
  | verify16 lba x p d b bs =>
    obtain ⟨-, hp⟩ := h
    have hb := setBlocks16_spec (c := startCdb 16 0x8f (verifyFlags p d b)) lba (x / bs) (by simp)
    obtain ⟨hop, hflags⟩ := cdbVerify_spec (by decide : 1 < 16)
      (show byte (setBlocks16 (startCdb 16 0x8f (verifyFlags p d b)) lba (x / bs)) 0 = _ from
        byte_setBlocks16 (by decide))
      (byte_setBlocks16 (by decide)) hp
    refine iff_of_true ⟨_, _, rfl,
      (scsiCdbUnmarshall_verify ..).trans (if_neg (not_not.2 hop)), rfl, hb.1, hb.2, hflags⟩ trivial

/-- The largest block number of 32 bits. -/
theorem roundTrips_write16 :
    (write16 0xffffffff 1024 512 0 0 1 0 3).RoundTrips :=
  (roundTrips_iff (write16 0xffffffff 1024 512 0 0 1 0 3) ⟨by decide, by decide, by decide⟩).2
    (show (0xffffffff : UInt64).toNat < 2 ^ 32 by decide)

/-- The next one is decoded as zero. -/
theorem write16_lba_truncated :
    (write16 0x100000000 1024 512 0 0 1 0 3).Fits ∧
      ¬(write16 0x100000000 1024 512 0 0 1 0 3).RoundTrips := by
  refine ⟨⟨by decide, by decide, by decide⟩, ?_⟩
  rintro ⟨task, s, hbuild, hs, hr⟩
  obtain rfl := Option.some.inj hbuild
  have hdecoded : scsiCdbUnmarshall (scsiCdbWrite16 0x100000000 1024 512 0 0 1 0 3) 0x8a =
      some (.write16 {
        opcode := 0x8a, wrprotect := 0, dpo := 0, fua := 1, fuaNv := 0, lba := 0,
        transferLength := 2, group := 3, control := 0 }) := by decide
  obtain rfl := Option.some.inj (hdecoded.symm.trans hs)
  exact absurd hr.2.1 (by decide)

end CdbRequest

end Libiscsi
