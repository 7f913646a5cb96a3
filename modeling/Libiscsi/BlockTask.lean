import Libiscsi.Cdb

/-!
# Tasks of block commands

The functions `iscsi_*_task` that read, write and verify blocks (`lib/iscsi-command.c`), and the
builders of CDBs (`lib/scsi-lowlevel.c`) that only they use. A function checks that its data are
whole blocks, builds the CDB and hands the task to `iscsi_scsi_command_async`, which takes it or
not. Each function exists with and without vectors; the two differ in the vectors only.
-/

namespace Libiscsi

/-! ## Builders -/

/-- `scsi_cdb_orwrite`. -/
def scsiCdbOrwrite (lba : UInt64) (xferlen blocksize wrprotect dpo fua fuaNv groupNumber : UInt32) :
    ScsiTask :=
  let cdb := startCdb 16 0x8b (rwFlags wrprotect dpo fua fuaNv)
  let cdb := setBlocks16 cdb lba (xferlen / blocksize)
  transferTask (setGroup cdb 14 groupNumber) .write xferlen

/-- `scsi_cdb_compareandwrite`. -/
def scsiCdbCompareandwrite (lba : UInt64)
    (xferlen blocksize wrprotect dpo fua fuaNv groupNumber : UInt32) : ScsiTask :=
  let cdb := startCdb 16 0x89 (rwFlags wrprotect dpo fua fuaNv)
  let cdb := (setLba16 cdb lba).set 13 (xferlen / blocksize / 2).toUInt8
  transferTask (setGroup cdb 14 groupNumber) .write xferlen

/-- `cdb[1]` of the commands that write and verify. -/
def writeverifyFlags (protect dpo bytchk : UInt32) : UInt8 :=
  rwFlags protect dpo 0 bytchk

/-- `scsi_cdb_writeverify10`. -/
def scsiCdbWriteverify10 (lba xferlen blocksize wrprotect dpo bytchk groupNumber : UInt32) :
    ScsiTask :=
  let cdb := startCdb 10 0x2e (writeverifyFlags wrprotect dpo bytchk)
  let cdb := setBlocks10 cdb lba (xferlen / blocksize)
  transferTask (setGroup cdb 6 groupNumber) .write xferlen

/-- `scsi_cdb_writeverify12`. -/
def scsiCdbWriteverify12 (lba xferlen blocksize wrprotect dpo bytchk groupNumber : UInt32) :
    ScsiTask :=
  let cdb := startCdb 12 0xae (writeverifyFlags wrprotect dpo bytchk)
  let cdb := setBlocks12 cdb lba (xferlen / blocksize)
  transferTask (setGroup cdb 10 groupNumber) .write xferlen

/-- `scsi_cdb_writeverify16`. -/
def scsiCdbWriteverify16 (lba : UInt64)
    (xferlen blocksize wrprotect dpo bytchk groupNumber : UInt32) : ScsiTask :=
  let cdb := startCdb 16 0x8e (writeverifyFlags wrprotect dpo bytchk)
  let cdb := setBlocks16 cdb lba (xferlen / blocksize)
  transferTask (setGroup cdb 14 groupNumber) .write xferlen

/-! ## Task functions -/

/-- `scsi_task_set_iov_in`. -/
def scsiTaskSetIovIn (task : ScsiTask) (iov : List ScsiIovec) : ScsiTask :=
  { task with iovectorIn := { task.iovectorIn with iov := some iov } }

/-- What the application's call and the context contribute to a task: the vectors, if any, and
whether `iscsi_scsi_command_async` takes the task. -/
structure BlockCall where
  iov : Option (List ScsiIovec) := none
  accepts : ScsiTask → Bool

/-- The vectors of the call, in the direction of the transfer. -/
def BlockCall.setIov (c : BlockCall) (dir : XferDir) (task : ScsiTask) : ScsiTask :=
  match c.iov with
  | some iov => if dir = .read then scsiTaskSetIovIn task iov else scsiTaskSetIovOut task iov
  | none => task

/-- The common body: the check of the length, the builder, the vectors, and the submission. -/
def blockTask (c : BlockCall) (datalen unit : UInt32) (dir : XferDir) (built : Option ScsiTask) :
    Option ScsiTask :=
  if datalen % unit ≠ 0 then none
  else
    match built with
    | none => none
    | some task =>
      if c.accepts (c.setIov dir task) then some (c.setIov dir task) else none

section
variable (c : BlockCall)

/-- `iscsi_read6_task` and `iscsi_read6_iov_task`. -/
def iscsiRead6Task (lba datalen blocksize : UInt32) : Option ScsiTask :=
  blockTask c datalen blocksize .read (scsiCdbRead6 lba datalen blocksize)

/-- `iscsi_read10_task` and `iscsi_read10_iov_task`. -/
def iscsiRead10Task (lba datalen blocksize rdprotect dpo fua fuaNv groupNumber : UInt32) :
    Option ScsiTask :=
  blockTask c datalen blocksize .read
    (some (scsiCdbRead10 lba datalen blocksize rdprotect dpo fua fuaNv groupNumber))

/-- `iscsi_read12_task` and `iscsi_read12_iov_task`. -/
def iscsiRead12Task (lba datalen blocksize rdprotect dpo fua fuaNv groupNumber : UInt32) :
    Option ScsiTask :=
  blockTask c datalen blocksize .read
    (some (scsiCdbRead12 lba datalen blocksize rdprotect dpo fua fuaNv groupNumber))

/-- `iscsi_read16_task` and `iscsi_read16_iov_task`. -/
def iscsiRead16Task (lba : UInt64)
    (datalen blocksize rdprotect dpo fua fuaNv groupNumber : UInt32) : Option ScsiTask :=
  blockTask c datalen blocksize .read
    (some (scsiCdbRead16 lba datalen blocksize rdprotect dpo fua fuaNv groupNumber))

/-- `iscsi_write10_task` and `iscsi_write10_iov_task`. -/
def iscsiWrite10Task (lba datalen blocksize wrprotect dpo fua fuaNv groupNumber : UInt32) :
    Option ScsiTask :=
  blockTask c datalen blocksize .write
    (some (scsiCdbWrite10 lba datalen blocksize wrprotect dpo fua fuaNv groupNumber))

/-- `iscsi_write12_task` and `iscsi_write12_iov_task`. -/
def iscsiWrite12Task (lba datalen blocksize wrprotect dpo fua fuaNv groupNumber : UInt32) :
    Option ScsiTask :=
  blockTask c datalen blocksize .write
    (some (scsiCdbWrite12 lba datalen blocksize wrprotect dpo fua fuaNv groupNumber))

/-- `iscsi_write16_task` and `iscsi_write16_iov_task`. -/
def iscsiWrite16Task (lba : UInt64)
    (datalen blocksize wrprotect dpo fua fuaNv groupNumber : UInt32) : Option ScsiTask :=
  blockTask c datalen blocksize .write
    (some (scsiCdbWrite16 lba datalen blocksize wrprotect dpo fua fuaNv groupNumber))

/-- `iscsi_writeatomic16_task` and `iscsi_writeatomic16_iov_task`. -/
def iscsiWriteatomic16Task (lba : UInt64)
    (datalen blocksize wrprotect dpo fua groupNumber : UInt32) : Option ScsiTask :=
  blockTask c datalen blocksize .write
    (some (scsiCdbWriteatomic16 lba datalen blocksize wrprotect dpo fua groupNumber))

/-- `iscsi_orwrite_task` and `iscsi_orwrite_iov_task`. -/
def iscsiOrwriteTask (lba : UInt64)
    (datalen blocksize wrprotect dpo fua fuaNv groupNumber : UInt32) : Option ScsiTask :=
  blockTask c datalen blocksize .write
    (some (scsiCdbOrwrite lba datalen blocksize wrprotect dpo fua fuaNv groupNumber))

/-- `iscsi_compareandwrite_task` and `iscsi_compareandwrite_iov_task`: the data are two blocks for
each block of the command. -/
def iscsiCompareandwriteTask (lba : UInt64)
    (datalen blocksize wrprotect dpo fua fuaNv groupNumber : UInt32) : Option ScsiTask :=
  blockTask c datalen (blocksize * 2) .write
    (some (scsiCdbCompareandwrite lba datalen blocksize wrprotect dpo fua fuaNv groupNumber))

/-- `iscsi_writeverify10_task` and `iscsi_writeverify10_iov_task`. -/
def iscsiWriteverify10Task (lba datalen blocksize wrprotect dpo bytchk groupNumber : UInt32) :
    Option ScsiTask :=
  blockTask c datalen blocksize .write
    (some (scsiCdbWriteverify10 lba datalen blocksize wrprotect dpo bytchk groupNumber))

/-- `iscsi_writeverify12_task` and `iscsi_writeverify12_iov_task`. -/
def iscsiWriteverify12Task (lba datalen blocksize wrprotect dpo bytchk groupNumber : UInt32) :
    Option ScsiTask :=
  blockTask c datalen blocksize .write
    (some (scsiCdbWriteverify12 lba datalen blocksize wrprotect dpo bytchk groupNumber))

/-- `iscsi_writeverify16_task` and `iscsi_writeverify16_iov_task`. -/
def iscsiWriteverify16Task (lba : UInt64)
    (datalen blocksize wrprotect dpo bytchk groupNumber : UInt32) : Option ScsiTask :=
  blockTask c datalen blocksize .write
    (some (scsiCdbWriteverify16 lba datalen blocksize wrprotect dpo bytchk groupNumber))

/-- `iscsi_verify10_task` and `iscsi_verify10_iov_task`. -/
def iscsiVerify10Task (datalen lba vprotect dpo bytchk blocksize : UInt32) : Option ScsiTask :=
  blockTask c datalen blocksize .write
    (some (scsiCdbVerify10 lba datalen vprotect dpo bytchk blocksize))

/-- `iscsi_verify12_task` and `iscsi_verify12_iov_task`. -/
def iscsiVerify12Task (datalen lba vprotect dpo bytchk blocksize : UInt32) : Option ScsiTask :=
  blockTask c datalen blocksize .write
    (some (scsiCdbVerify12 lba datalen vprotect dpo bytchk blocksize))

/-- `iscsi_verify16_task` and `iscsi_verify16_iov_task`. -/
def iscsiVerify16Task (datalen : UInt32) (lba : UInt64) (vprotect dpo bytchk blocksize : UInt32) :
    Option ScsiTask :=
  blockTask c datalen blocksize .write
    (some (scsiCdbVerify16 lba datalen vprotect dpo bytchk blocksize))

end

end Libiscsi
