import Libiscsi.BlockTask
import Libiscsi.CdbCorrect

/-!
# What a task asks for and what it transfers

The number of blocks in a CDB is the length of the data divided by the block size, cut off at the
width of its field; `task->expxferlen` is the whole length. They agree when the number of blocks
fits the field (`BlockRequest.asksExactly_iff`). Only `scsi_cdb_read6` looks whether it does, as an
`int`, and without data it asks for 256 blocks.
-/

namespace Libiscsi

/-! ## Numbers of blocks -/

/-- A number of blocks that was cut off at the width of a field stands for the same number of
bytes exactly if nothing was cut off. -/
theorem mod_blocks_mul_eq_iff {x unit m : Nat} (hunit : 0 < unit) (hm : 0 < m) (hx : unit ∣ x) :
    x / unit % m * unit = x ↔ x / unit < m := by
  obtain ⟨n, rfl⟩ := hx
  rw [Nat.mul_div_cancel_left n hunit, Nat.mul_comm unit n, Nat.mul_left_inj hunit.ne']
  constructor
  · intro h
    rw [← h]
    exact Nat.mod_lt n hm
  · exact Nat.mod_eq_of_lt

/-- The number of blocks that a CDB denotes, by its operation code. In READ(6), 0 stands for 256
blocks. -/
def cdbBlocks (cdb : List UInt8) : Nat :=
  match byte cdb 0 with
  | 0x08 => if (byte cdb 4).toNat = 0 then 256 else (byte cdb 4).toNat
  | 0x28 | 0x2a | 0x2e | 0x2f => (scsiGetUint16 cdb 7).toNat
  | 0xa8 | 0xaa | 0xae | 0xaf => (scsiGetUint32 cdb 6).toNat
  | 0x88 | 0x8a | 0x8b | 0x8e | 0x8f => (scsiGetUint32 cdb 10).toNat
  | 0x9c => (scsiGetUint16 cdb 12).toNat
  | 0x89 => (byte cdb 13).toNat
  | _ => 0

section
variable {op flags : UInt8} {lba blocks g : UInt32} {lba64 : UInt64} {cdb : List UInt8}

/-- The blocks of a CDB of ten bytes, with the group number set or not. -/
theorem cdbBlocks_ten (hop : op ∈ [0x28, 0x2a, 0x2e, 0x2f])
    (h : cdb = setBlocks10 (startCdb 10 op flags) lba blocks ∨
      cdb = setGroup (setBlocks10 (startCdb 10 op flags) lba blocks) 6 g) :
    cdbBlocks cdb = blocks.toNat % 2 ^ 16 := by
  have hblocks := (setBlocks10_spec (c := startCdb 10 op flags) lba blocks (by simp)).2
  have hfield : byte cdb 0 = op ∧ scsiGetUint16 cdb 7 = blocks.toUInt16 := by
    rcases h with rfl | rfl
    · rw [byte_setBlocks10 (by decide), byte_startCdb_zero (by decide)]
      exact ⟨rfl, hblocks⟩
    · rw [byte_setGroup (by decide), byte_setBlocks10 (by decide), byte_startCdb_zero (by decide),
        setGroup, scsiGetUint16_setByte (by decide)]
      exact ⟨rfl, hblocks⟩
  obtain ⟨h0, h7⟩ := hfield
  rw [← UInt32.toNat_toUInt16, ← h7]
  unfold cdbBlocks
  rw [h0]
  simp only [List.mem_cons, List.not_mem_nil, or_false] at hop
  rcases hop with rfl | rfl | rfl | rfl <;> rfl

/-- The blocks of a CDB of twelve bytes, with the group number set or not. -/
theorem cdbBlocks_twelve (hop : op ∈ [0xa8, 0xaa, 0xae, 0xaf])
    (h : cdb = setBlocks12 (startCdb 12 op flags) lba blocks ∨
      cdb = setGroup (setBlocks12 (startCdb 12 op flags) lba blocks) 10 g) :
    cdbBlocks cdb = blocks.toNat % 2 ^ 32 := by
  have hblocks := (setBlocks12_spec (c := startCdb 12 op flags) lba blocks (by simp)).2
  have hfield : byte cdb 0 = op ∧ scsiGetUint32 cdb 6 = blocks := by
    rcases h with rfl | rfl
    · rw [byte_setBlocks12 (by decide), byte_startCdb_zero (by decide)]
      exact ⟨rfl, hblocks⟩
    · rw [byte_setGroup (by decide), byte_setBlocks12 (by decide), byte_startCdb_zero (by decide),
        setGroup, scsiGetUint32_setByte (by decide)]
      exact ⟨rfl, hblocks⟩
  obtain ⟨h0, h6⟩ := hfield
  rw [Nat.mod_eq_of_lt blocks.toNat_lt, ← h6]
  unfold cdbBlocks
  rw [h0]
  simp only [List.mem_cons, List.not_mem_nil, or_false] at hop
  rcases hop with rfl | rfl | rfl | rfl <;> rfl

/-- The blocks of a CDB of sixteen bytes, with the group number set or not. -/
theorem cdbBlocks_sixteen (hop : op ∈ [0x88, 0x8a, 0x8b, 0x8e, 0x8f])
    (h : cdb = setBlocks16 (startCdb 16 op flags) lba64 blocks ∨
      cdb = setGroup (setBlocks16 (startCdb 16 op flags) lba64 blocks) 14 g) :
    cdbBlocks cdb = blocks.toNat % 2 ^ 32 := by
  have hblocks := (setBlocks16_spec (c := startCdb 16 op flags) lba64 blocks (by simp)).2
  have hfield : byte cdb 0 = op ∧ scsiGetUint32 cdb 10 = blocks := by
    rcases h with rfl | rfl
    · rw [byte_setBlocks16 (by decide), byte_startCdb_zero (by decide)]
      exact ⟨rfl, hblocks⟩
    · rw [byte_setGroup (by decide), byte_setBlocks16 (by decide), byte_startCdb_zero (by decide),
        setGroup, scsiGetUint32_setByte (by decide)]
      exact ⟨rfl, hblocks⟩
  obtain ⟨h0, h10⟩ := hfield
  rw [Nat.mod_eq_of_lt blocks.toNat_lt, ← h10]
  unfold cdbBlocks
  rw [h0]
  simp only [List.mem_cons, List.not_mem_nil, or_false] at hop
  rcases hop with rfl | rfl | rfl | rfl | rfl <;> rfl

/-- The blocks of WRITE ATOMIC(16). -/
theorem cdbBlocks_atomic
    (h : cdb = setGroup (scsiSetUint16 (setLba16 (startCdb 16 0x9c flags) lba64) 12
      blocks.toUInt16) 14 g) :
    cdbBlocks cdb = blocks.toNat % 2 ^ 16 := by
  have h0 : byte cdb 0 = 0x9c := by
    rw [h, byte_setGroup (by decide), byte_scsiSetUint16 (by decide), byte_setLba16 (by decide),
      byte_startCdb_zero (by decide)]
  have h12 : scsiGetUint16 cdb 12 = blocks.toUInt16 := by
    rw [h, setGroup, scsiGetUint16_setByte (by decide), scsiGetUint16_set (by simp)]
  rw [← UInt32.toNat_toUInt16, ← h12]
  unfold cdbBlocks
  rw [h0]
  rfl

/-- The blocks of COMPARE AND WRITE. -/
theorem cdbBlocks_compare
    (h : cdb = setGroup ((setLba16 (startCdb 16 0x89 flags) lba64).set 13 blocks.toUInt8) 14 g) :
    cdbBlocks cdb = blocks.toNat % 2 ^ 8 := by
  have h0 : byte cdb 0 = 0x89 := by
    rw [h, byte_setGroup (by decide), byte_set_ne (by decide), byte_setLba16 (by decide),
      byte_startCdb_zero (by decide)]
  have h13 : byte cdb 13 = blocks.toUInt8 := by
    rw [h, byte_setGroup (by decide), byte_set_eq (by simp)]
  rw [← UInt32.toNat_toUInt8, ← h13]
  unfold cdbBlocks
  rw [h0]
  rfl

end

/-- The expected length of a transfer that verifies. -/
theorem verifyTask_expxferlen (cdb : List UInt8) (x bytchk : UInt32) :
    (verifyTask cdb x bytchk).expxferlen = if bytchk ≠ 0 then x else 0 := by
  unfold verifyTask
  by_cases hx : x = 0
  · subst hx
    simp
  · by_cases hb : bytchk = 0
    · rw [if_neg (fun h => h.2 hb), if_neg (not_not.2 hb)]
    · rw [if_pos ⟨hx, hb⟩, if_pos hb]

/-! ## READ(6) -/

/-- An `int` of 32 bits is larger than 256 if its bits are those of such a number of 31 bits. -/
theorem toInt32_gt_iff {n : UInt32} : n.toInt32 > 256 ↔ 256 < n.toNat ∧ n.toNat < 2 ^ 31 := by
  have h256 : (256 : Int32).toInt = 256 := rfl
  have hn : n.toInt32.toInt = if 2 * n.toNat < 2 ^ 32 then (n.toNat : Int) else n.toNat - 2 ^ 32 :=
    BitVec.toInt_eq_toNat_cond n.toBitVec
  rw [gt_iff_lt, Int32.lt_iff_toInt_lt, h256, hn]
  have hlt := n.toNat_lt
  split <;> omega

/-- An `int` that is neither above nor below 256. -/
theorem eq_of_toInt32_not {n : UInt32} (hgt : ¬n.toInt32 > 256) (hlt : ¬n.toInt32 < 256) :
    n = 256 := by
  have h : n.toInt32 = 256 := Int32.le_antisymm (Int32.not_lt.1 hgt) (Int32.not_lt.1 hlt)
  rw [← n.toUInt32_toInt32, h]
  rfl

/-- The byte for the number of blocks, when it is set. -/
theorem toUInt8_toInt32_and (n : UInt32) :
    (n.toInt32 &&& 0xff).toUInt32.toUInt8.toNat = n.toNat % 256 := by
  have hand : (n.toInt32 &&& 0xff).toUInt32 = n &&& 0xff := rfl
  have h := Nat.and_two_pow_sub_one_eq_mod n.toNat 8
  rw [hand, UInt32.toNat_toUInt8, UInt32.toNat_and]
  simp only [UInt32.reduceToNat, Nat.reducePow, Nat.reduceSub] at h ⊢
  rw [h, Nat.mod_mod]

/-- What a CDB of READ(6) denotes. -/
theorem cdbBlocks_read6 {cdb : List UInt8} (h0 : byte cdb 0 = 0x08) :
    cdbBlocks cdb = if (byte cdb 4).toNat = 0 then 256 else (byte cdb 4).toNat := by
  unfold cdbBlocks
  rw [h0]
  rfl

/-- What `scsi_cdb_read6` asks for, when it makes a task. -/
theorem scsiCdbRead6_eq_some {lba x bs : UInt32} {task : ScsiTask}
    (h : scsiCdbRead6 lba x bs = some task) :
    ¬lba > 0x1fffff ∧ ¬(x / bs).toInt32 > 256 ∧ task.expxferlen = x ∧
      cdbBlocks task.cdb =
        if (x / bs).toNat % 256 = 0 then 256 else (x / bs).toNat % 256 := by
  unfold scsiCdbRead6 at h
  by_cases hblocks : (x / bs).toInt32 > 256
  · rw [if_pos hblocks] at h
    cases h
  by_cases hlba : lba > 0x1fffff
  · rw [if_neg hblocks, if_pos hlba] at h
    cases h
  rw [if_neg hblocks, if_neg hlba] at h
  obtain rfl := Option.some.inj h
  refine ⟨hlba, hblocks, rfl, ?_⟩
  rw [transferTask_cdb]
  split
  · rw [cdbBlocks_read6 (by simp [byte]), byte_set_eq (by simp), toUInt8_toInt32_and]
  · rename_i hlt
    rw [eq_of_toInt32_not hblocks hlt, cdbBlocks_read6 (by simp [byte])]
    simp [byte]

/-- `scsi_cdb_read6` makes a task of what it does not refuse. -/
theorem scsiCdbRead6_isSome {lba x bs : UInt32} (hlba : ¬lba > 0x1fffff)
    (hblocks : ¬(x / bs).toInt32 > 256) : (scsiCdbRead6 lba x bs).isSome := by
  unfold scsiCdbRead6
  rw [if_neg hblocks, if_neg hlba]
  rfl

/-! ## Requests -/

/-- A call of one of the task functions. -/
inductive BlockRequest where
  | cdb (r : CdbRequest)
  | orwrite (lba : UInt64) (datalen blocksize wrprotect dpo fua fuaNv group : UInt32)
  | compareandwrite (lba : UInt64) (datalen blocksize wrprotect dpo fua fuaNv group : UInt32)
  | writeverify10 (lba datalen blocksize wrprotect dpo bytchk group : UInt32)
  | writeverify12 (lba datalen blocksize wrprotect dpo bytchk group : UInt32)
  | writeverify16 (lba : UInt64) (datalen blocksize wrprotect dpo bytchk group : UInt32)

namespace BlockRequest

/-- The function that is called. -/
def task (c : BlockCall) : BlockRequest → Option ScsiTask
  | cdb (.read6 lba x bs) => iscsiRead6Task c lba x bs
  | cdb (.read10 lba x bs p d f n g) => iscsiRead10Task c lba x bs p d f n g
  | cdb (.read12 lba x bs p d f n g) => iscsiRead12Task c lba x bs p d f n g
  | cdb (.read16 lba x bs p d f n g) => iscsiRead16Task c lba x bs p d f n g
  | cdb (.write10 lba x bs p d f n g) => iscsiWrite10Task c lba x bs p d f n g
  | cdb (.write12 lba x bs p d f n g) => iscsiWrite12Task c lba x bs p d f n g
  | cdb (.write16 lba x bs p d f n g) => iscsiWrite16Task c lba x bs p d f n g
  | cdb (.writeatomic16 lba x bs p d f g) => iscsiWriteatomic16Task c lba x bs p d f g
  | cdb (.verify10 lba x p d b bs) => iscsiVerify10Task c x lba p d b bs
  | cdb (.verify12 lba x p d b bs) => iscsiVerify12Task c x lba p d b bs
  | cdb (.verify16 lba x p d b bs) => iscsiVerify16Task c x lba p d b bs
  | orwrite lba x bs p d f n g => iscsiOrwriteTask c lba x bs p d f n g
  | compareandwrite lba x bs p d f n g => iscsiCompareandwriteTask c lba x bs p d f n g
  | writeverify10 lba x bs p d b g => iscsiWriteverify10Task c lba x bs p d b g
  | writeverify12 lba x bs p d b g => iscsiWriteverify12Task c lba x bs p d b g
  | writeverify16 lba x bs p d b g => iscsiWriteverify16Task c lba x bs p d b g

/-- The length of the data. -/
def datalen : BlockRequest → UInt32
  | cdb (.read6 _ x _) | cdb (.read10 _ x ..) | cdb (.read12 _ x ..) | cdb (.read16 _ x ..)
  | cdb (.write10 _ x ..) | cdb (.write12 _ x ..) | cdb (.write16 _ x ..)
  | cdb (.writeatomic16 _ x ..) | cdb (.verify10 _ x ..) | cdb (.verify12 _ x ..)
  | cdb (.verify16 _ x ..) | orwrite _ x .. | compareandwrite _ x .. | writeverify10 _ x ..
  | writeverify12 _ x .. | writeverify16 _ x .. => x

/-- The block size. -/
def blocksize : BlockRequest → UInt32
  | cdb (.read6 _ _ bs) | cdb (.read10 _ _ bs ..) | cdb (.read12 _ _ bs ..)
  | cdb (.read16 _ _ bs ..) | cdb (.write10 _ _ bs ..) | cdb (.write12 _ _ bs ..)
  | cdb (.write16 _ _ bs ..) | cdb (.writeatomic16 _ _ bs ..) | cdb (.verify10 _ _ _ _ _ bs)
  | cdb (.verify12 _ _ _ _ _ bs) | cdb (.verify16 _ _ _ _ _ bs) | orwrite _ _ bs ..
  | compareandwrite _ _ bs .. | writeverify10 _ _ bs .. | writeverify12 _ _ bs ..
  | writeverify16 _ _ bs .. => bs

/-- How many blocks of data there are for each block of the command. -/
def copies : BlockRequest → Nat
  | compareandwrite .. => 2
  | _ => 1

/-- The bytes of data for each block of the command. -/
def unit (r : BlockRequest) : Nat := r.blocksize.toNat * r.copies

/-- The expected length of the transfer: that of the data, or none for a VERIFY that has nothing
to compare with. -/
def expected (r : BlockRequest) : UInt32 :=
  match r with
  | cdb (.verify10 _ _ _ _ bytchk _) | cdb (.verify12 _ _ _ _ bytchk _)
  | cdb (.verify16 _ _ _ _ bytchk _) => if bytchk ≠ 0 then r.datalen else 0
  | _ => r.datalen

/-- The number of values of the field for the number of blocks. -/
def fieldSize : BlockRequest → Nat
  | cdb (.read10 ..) | cdb (.write10 ..) | cdb (.verify10 ..) | cdb (.writeatomic16 ..)
  | writeverify10 .. => 2 ^ 16
  | cdb (.read6 ..) | compareandwrite .. => 2 ^ 8
  | _ => 2 ^ 32

/-- Every task that the function returns asks for the blocks of the data, and transfers them. -/
def AsksExactly (r : BlockRequest) : Prop :=
  ∀ c task, r.task c = some task →
    cdbBlocks task.cdb * r.unit = r.datalen.toNat ∧ task.expxferlen = r.expected

/-- The length passes the check and the number of blocks fits its field. `scsi_cdb_read6` refuses
logical block addresses and numbers of blocks that are too large, these as long as they are
positive as an `int`. -/
def FitsField (r : BlockRequest) : Prop :=
  match r with
  | cdb (.read6 lba x bs) =>
    x.toNat % bs.toNat = 0 → lba > 0x1fffff ∨ 0 < x.toNat ∧ x.toNat / bs.toNat < 2 ^ 31
  | r => r.datalen.toNat % r.unit = 0 → r.datalen.toNat / r.unit < r.fieldSize

/-- The builder that the function calls. -/
def built : BlockRequest → Option ScsiTask
  | cdb r => r.build
  | orwrite lba x bs p d f n g => some (scsiCdbOrwrite lba x bs p d f n g)
  | compareandwrite lba x bs p d f n g => some (scsiCdbCompareandwrite lba x bs p d f n g)
  | writeverify10 lba x bs p d b g => some (scsiCdbWriteverify10 lba x bs p d b g)
  | writeverify12 lba x bs p d b g => some (scsiCdbWriteverify12 lba x bs p d b g)
  | writeverify16 lba x bs p d b g => some (scsiCdbWriteverify16 lba x bs p d b g)

/-- What the length has to be a multiple of, as the function computes it. -/
def divisor : BlockRequest → UInt32
  | compareandwrite _ _ bs .. => bs * 2
  | r => r.blocksize

/-- Every function has the common body. -/
theorem task_eq (r : BlockRequest) (c : BlockCall) :
    ∃ dir, r.task c = blockTask c r.datalen r.divisor dir r.built := by
  cases r with
  | cdb r => cases r <;> exact ⟨_, rfl⟩
  | _ => exact ⟨_, rfl⟩

/-- The divisor does not overflow for a block size that is a positive `int`. -/
theorem toNat_divisor (r : BlockRequest) (h : r.blocksize.toNat < 2 ^ 31) :
    r.divisor.toNat = r.unit := by
  cases r with
  | compareandwrite lba x bs p d f n g =>
    change bs.toNat < 2 ^ 31 at h
    change (bs * 2).toNat = bs.toNat * 2
    rw [UInt32.toNat_mul, show (2 : UInt32).toNat = 2 from rfl]
    omega
  | cdb r => exact (Nat.mul_one _).symm
  | _ => exact (Nat.mul_one _).symm

end BlockRequest

/-- The vectors change neither the CDB nor the length of the transfer. -/
theorem BlockCall.setIov_spec (c : BlockCall) (dir : XferDir) (task : ScsiTask) :
    (c.setIov dir task).cdb = task.cdb ∧ (c.setIov dir task).expxferlen = task.expxferlen := by
  unfold BlockCall.setIov
  cases c.iov with
  | none => exact ⟨rfl, rfl⟩
  | some iov =>
    dsimp only
    by_cases hdir : dir = .read
    · rw [if_pos hdir]
      exact ⟨rfl, rfl⟩
    · rw [if_neg hdir]
      exact ⟨rfl, rfl⟩

/-- A task that is returned was built, for data that are whole blocks. -/
theorem blockTask_eq_some {c : BlockCall} {datalen unit : UInt32} {dir : XferDir}
    {built : Option ScsiTask} {task : ScsiTask}
    (h : blockTask c datalen unit dir built = some task) :
    datalen % unit = 0 ∧ ∃ task₀, built = some task₀ ∧ task.cdb = task₀.cdb ∧
      task.expxferlen = task₀.expxferlen := by
  unfold blockTask at h
  by_cases hmod : datalen % unit = 0
  · rw [if_neg (not_not.2 hmod)] at h
    cases built with
    | none => cases h
    | some task₀ =>
      dsimp only at h
      obtain ⟨-, hsome⟩ := Option.ite_none_right_eq_some.1 h
      obtain rfl := Option.some.inj hsome
      exact ⟨hmod, task₀, rfl, c.setIov_spec dir task₀⟩
  · rw [if_pos hmod] at h
    cases h

/-- Without vectors, a task that `iscsi_scsi_command_async` takes is the one that was built. -/
theorem blockTask_accepted {datalen unit : UInt32} {dir : XferDir} {task : ScsiTask}
    (h : datalen % unit = 0) :
    blockTask ⟨none, fun _ => true⟩ datalen unit dir (some task) = some task := by
  unfold blockTask
  rw [if_neg (not_not.2 h)]
  rfl

namespace BlockRequest

/-- A request asks exactly if the check fails or the task that is built asks exactly. -/
theorem asksExactly_of_built (r : BlockRequest) (h : r.blocksize.toNat < 2 ^ 31) :
    r.AsksExactly ↔ (r.datalen.toNat % r.unit = 0 → ∀ task, r.built = some task →
      cdbBlocks task.cdb * r.unit = r.datalen.toNat ∧ task.expxferlen = r.expected) := by
  have hmod : r.datalen % r.divisor = 0 ↔ r.datalen.toNat % r.unit = 0 := by
    rw [← UInt32.toNat_inj, UInt32.toNat_mod, toNat_divisor r h, UInt32.toNat_zero]
  constructor
  · intro hasks hlen task hbuilt
    obtain ⟨dir, htask⟩ := r.task_eq ⟨none, fun _ => true⟩
    rw [hbuilt, blockTask_accepted (hmod.2 hlen)] at htask
    exact hasks _ task htask
  · intro hbuilt c task htask
    obtain ⟨dir, heq⟩ := r.task_eq c
    obtain ⟨hlen, task₀, htask₀, hcdb, hexp⟩ := blockTask_eq_some (heq.symm.trans htask)
    rw [hcdb, hexp]
    exact hbuilt (hmod.1 hlen) task₀ htask₀

/-- A field that holds the number of blocks, cut off at its width, asks for exactly the blocks if
nothing was cut off. -/
theorem asksExactly_of_field (r : BlockRequest) (hpos : 0 < r.blocksize.toNat)
    (hlt : r.blocksize.toNat < 2 ^ 31) {task : ScsiTask} (hbuilt : r.built = some task)
    (hexp : task.expxferlen = r.expected)
    (hblocks : cdbBlocks task.cdb = r.datalen.toNat / r.unit % r.fieldSize) :
    r.AsksExactly ↔ (r.datalen.toNat % r.unit = 0 → r.datalen.toNat / r.unit < r.fieldSize) := by
  have hunit : 0 < r.unit := Nat.mul_pos hpos (by unfold copies; split <;> decide)
  have hsize : 0 < r.fieldSize := by unfold fieldSize; split <;> decide
  rw [asksExactly_of_built r hlt]
  refine imp_congr_right fun hmod => ?_
  rw [← mod_blocks_mul_eq_iff hunit hsize (Nat.dvd_of_mod_eq_zero hmod), ← hblocks]
  constructor
  · intro h
    exact (h task hbuilt).1
  · intro h task' htask'
    obtain rfl := Option.some.inj (hbuilt.symm.trans htask')
    exact ⟨h, hexp⟩

/-- The number of blocks of a command without copies. -/
theorem toNat_div_one (x bs : UInt32) : (x / bs).toNat = x.toNat / (bs.toNat * 1) := by
  rw [UInt32.toNat_div, Nat.mul_one]

/-- READ(6) asks exactly if it refuses, or for one to 256 blocks. -/
theorem read6_asksExactly_iff {lba x bs : UInt32} (hpos : 0 < bs.toNat) (hlt : bs.toNat < 2 ^ 31) :
    (cdb (.read6 lba x bs)).AsksExactly ↔ (cdb (.read6 lba x bs)).FitsField := by
  have hunit : (cdb (.read6 lba x bs)).unit = bs.toNat := Nat.mul_one _
  rw [asksExactly_of_built (cdb (.read6 lba x bs)) hlt, hunit]
  refine imp_congr_right fun hmod => ?_
  change x.toNat % bs.toNat = 0 at hmod
  obtain ⟨n, hn⟩ := Nat.dvd_of_mod_eq_zero hmod
  have hblocks : (x / bs).toNat = n := by
    rw [UInt32.toNat_div, hn, Nat.mul_div_cancel_left n hpos]
  have hgt := @toInt32_gt_iff (x / bs)
  rw [hblocks] at hgt
  have hxn : x.toNat / bs.toNat = n := by rw [← UInt32.toNat_div, hblocks]
  have hx : 0 < x.toNat ↔ 0 < n := by
    rw [hn]
    exact Nat.mul_pos_iff_of_pos_left hpos
  rw [hxn, hx]
  change (∀ task, scsiCdbRead6 lba x bs = some task →
    cdbBlocks task.cdb * bs.toNat = x.toNat ∧ task.expxferlen = x) ↔ _
  constructor
  · intro h
    by_cases hlba : lba > 0x1fffff
    · exact .inl hlba
    refine .inr ?_
    by_cases hbig : (x / bs).toInt32 > 256
    · have := hgt.1 hbig
      exact ⟨by omega, this.2⟩
    · obtain ⟨task, htask⟩ := Option.isSome_iff_exists.1 (scsiCdbRead6_isSome hlba hbig)
      obtain ⟨-, -, -, hcdb⟩ := scsiCdbRead6_eq_some htask
      have heq := (h task htask).1
      rw [hcdb, hblocks, hn, Nat.mul_comm bs.toNat n, Nat.mul_left_inj hpos.ne'] at heq
      -- the field denotes one to 256 blocks
      split at heq <;> omega
  · rintro h task htask
    obtain ⟨hlba, hbig, hexp, hcdb⟩ := scsiCdbRead6_eq_some htask
    obtain ⟨hn0, hn31⟩ := h.resolve_left hlba
    refine ⟨?_, hexp⟩
    have hle : n ≤ 256 := by
      by_contra hle
      exact hbig (hgt.2 ⟨by omega, hn31⟩)
    rw [hcdb, hblocks, hn, Nat.mul_comm bs.toNat n]
    congr 1
    split <;> omega

/-- **A task asks for exactly the blocks it transfers if the number of blocks fits its field**, or
the function refuses the request. The fields of 32 bits always hold it. -/
theorem asksExactly_iff (r : BlockRequest) (hpos : 0 < r.blocksize.toNat)
    (hlt : r.blocksize.toNat < 2 ^ 31) : r.AsksExactly ↔ r.FitsField := by
  cases r with
  | cdb r =>
    cases r with
    | read6 lba x bs => exact read6_asksExactly_iff hpos hlt
    | read10 lba x bs p d f n g =>
      have hcdb := cdbBlocks_ten (by decide)
        (.inr (show (scsiCdbRead10 lba x bs p d f n g).cdb = _ from rfl))
      rw [toNat_div_one] at hcdb
      exact asksExactly_of_field _ hpos hlt rfl rfl hcdb
    | read12 lba x bs p d f n g =>
      have hcdb := cdbBlocks_twelve (by decide)
        (.inr (show (scsiCdbRead12 lba x bs p d f n g).cdb = _ from rfl))
      rw [toNat_div_one] at hcdb
      exact asksExactly_of_field _ hpos hlt rfl rfl hcdb
    | read16 lba x bs p d f n g =>
      have hcdb := cdbBlocks_sixteen (by decide)
        (.inr (show (scsiCdbRead16 lba x bs p d f n g).cdb = _ from rfl))
      rw [toNat_div_one] at hcdb
      exact asksExactly_of_field _ hpos hlt rfl rfl hcdb
    | write10 lba x bs p d f n g =>
      have hcdb := cdbBlocks_ten (by decide)
        (.inr (show (scsiCdbWrite10 lba x bs p d f n g).cdb = _ from rfl))
      rw [toNat_div_one] at hcdb
      exact asksExactly_of_field _ hpos hlt rfl rfl hcdb
    | write12 lba x bs p d f n g =>
      have hcdb := cdbBlocks_twelve (by decide)
        (.inr (show (scsiCdbWrite12 lba x bs p d f n g).cdb = _ from rfl))
      rw [toNat_div_one] at hcdb
      exact asksExactly_of_field _ hpos hlt rfl rfl hcdb
    | write16 lba x bs p d f n g =>
      have hcdb := cdbBlocks_sixteen (by decide)
        (.inr (show (scsiCdbWrite16 lba x bs p d f n g).cdb = _ from rfl))
      rw [toNat_div_one] at hcdb
      exact asksExactly_of_field _ hpos hlt rfl rfl hcdb
    | writeatomic16 lba x bs p d f g =>
      have hcdb := cdbBlocks_atomic
        (show (scsiCdbWriteatomic16 lba x bs p d f g).cdb = _ from rfl)
      rw [toNat_div_one] at hcdb
      exact asksExactly_of_field _ hpos hlt rfl rfl hcdb
    | verify10 lba x p d b bs =>
      have hcdb := cdbBlocks_ten (g := 0) (by decide)
        (.inl (show (scsiCdbVerify10 lba x p d b bs).cdb = _ from verifyTask_cdb ..))
      rw [toNat_div_one] at hcdb
      exact asksExactly_of_field _ hpos hlt rfl (verifyTask_expxferlen ..) hcdb
    | verify12 lba x p d b bs =>
      have hcdb := cdbBlocks_twelve (g := 0) (by decide)
        (.inl (show (scsiCdbVerify12 lba x p d b bs).cdb = _ from verifyTask_cdb ..))
      rw [toNat_div_one] at hcdb
      exact asksExactly_of_field _ hpos hlt rfl (verifyTask_expxferlen ..) hcdb
    | verify16 lba x p d b bs =>
      have hcdb := cdbBlocks_sixteen (g := 0) (by decide)
        (.inl (show (scsiCdbVerify16 lba x p d b bs).cdb = _ from verifyTask_cdb ..))
      rw [toNat_div_one] at hcdb
      exact asksExactly_of_field _ hpos hlt rfl (verifyTask_expxferlen ..) hcdb
  | orwrite lba x bs p d f n g =>
    have hcdb := cdbBlocks_sixteen (by decide)
      (.inr (show (scsiCdbOrwrite lba x bs p d f n g).cdb = _ from rfl))
    rw [toNat_div_one] at hcdb
    exact asksExactly_of_field _ hpos hlt rfl rfl hcdb
  | compareandwrite lba x bs p d f n g =>
    have hcdb := cdbBlocks_compare
      (show (scsiCdbCompareandwrite lba x bs p d f n g).cdb = _ from rfl)
    rw [UInt32.toNat_div, UInt32.toNat_div, Nat.div_div_eq_div_mul] at hcdb
    exact asksExactly_of_field _ hpos hlt rfl rfl hcdb
  | writeverify10 lba x bs p d b g =>
    have hcdb := cdbBlocks_ten (by decide)
      (.inr (show (scsiCdbWriteverify10 lba x bs p d b g).cdb = _ from rfl))
    rw [toNat_div_one] at hcdb
    exact asksExactly_of_field _ hpos hlt rfl rfl hcdb
  | writeverify12 lba x bs p d b g =>
    have hcdb := cdbBlocks_twelve (by decide)
      (.inr (show (scsiCdbWriteverify12 lba x bs p d b g).cdb = _ from rfl))
    rw [toNat_div_one] at hcdb
    exact asksExactly_of_field _ hpos hlt rfl rfl hcdb
  | writeverify16 lba x bs p d b g =>
    have hcdb := cdbBlocks_sixteen (by decide)
      (.inr (show (scsiCdbWriteverify16 lba x bs p d b g).cdb = _ from rfl))
    rw [toNat_div_one] at hcdb
    exact asksExactly_of_field _ hpos hlt rfl rfl hcdb

/-- A READ(10) of the largest number of blocks. -/
theorem asksExactly_read10 : (cdb (.read10 0 33553920 512 0 0 0 0 0)).AsksExactly :=
  (asksExactly_iff (cdb (.read10 0 33553920 512 0 0 0 0 0)) (by decide) (by decide)).2
    (show 33553920 % 512 = 0 → 33553920 / 512 < 2 ^ 16 by decide)

/-- A READ(10) of one block more asks for none, and expects all the data. -/
theorem read10_truncated :
    ∃ task, iscsiRead10Task ⟨none, fun _ => true⟩ 0 33554432 512 0 0 0 0 0 = some task ∧
      cdbBlocks task.cdb = 0 ∧ task.expxferlen = 33554432 ∧
      ¬(cdb (.read10 0 33554432 512 0 0 0 0 0)).AsksExactly := by
  refine ⟨scsiCdbRead10 0 33554432 512 0 0 0 0 0, by decide, by decide, by decide, ?_⟩
  intro h
  have h0 := (h ⟨none, fun _ => true⟩ (scsiCdbRead10 0 33554432 512 0 0 0 0 0) (by decide)).1
  revert h0
  decide

end BlockRequest

end Libiscsi
