import Libiscsi.Iovector

/-!
# CDBs of block commands

The builders `scsi_cdb_read*`, `scsi_cdb_write*`, `scsi_cdb_writeatomic16` and `scsi_cdb_verify*`
and their inverse `scsi_cdb_unmarshall` (`lib/scsi-lowlevel.c`), when the allocations succeed. The
bytes of `task->cdb` after the first `cdb_size` are zero, and are not listed. An argument of type
`int` is given by its 32 bits, which is how the code uses it.
-/

namespace Libiscsi

/-! ## Building -/

/-- `cdb[1]` of the commands that read and write. -/
def rwFlags (protect dpo fua fuaNv : UInt32) : UInt8 :=
  let b := ((protect &&& 0x07) <<< 5).toUInt8
  let b := if dpo ≠ 0 then b ||| 0x10 else b
  let b := if fua ≠ 0 then b ||| 0x08 else b
  if fuaNv ≠ 0 then b ||| 0x02 else b

/-- `cdb[1]` of the commands that verify. -/
def verifyFlags (protect dpo bytchk : UInt32) : UInt8 :=
  let b := if protect ≠ 0 then ((protect <<< 5) &&& 0xe0).toUInt8 else 0
  let b := if dpo ≠ 0 then b ||| 0x10 else b
  if bytchk ≠ 0 then b ||| 0x02 else b

/-- A CDB with an opcode and `cdb[1]`. -/
def startCdb (size : Nat) (opcode flags : UInt8) : List UInt8 :=
  ((List.replicate size 0).set 0 opcode).set 1 flags

/-- `cdb[i] |= (group_number & 0x1f)`. -/
def setGroup (cdb : List UInt8) (i : Nat) (group : UInt32) : List UInt8 :=
  cdb.set i (byte cdb i ||| (group &&& 0x1f).toUInt8)

/-- The logical block address and the number of blocks of a CDB of ten bytes. -/
def setBlocks10 (cdb : List UInt8) (lba blocks : UInt32) : List UInt8 :=
  scsiSetUint16 (scsiSetUint32 cdb 2 lba) 7 blocks.toUInt16

/-- The logical block address and the number of blocks of a CDB of twelve bytes. -/
def setBlocks12 (cdb : List UInt8) (lba blocks : UInt32) : List UInt8 :=
  scsiSetUint32 (scsiSetUint32 cdb 2 lba) 6 blocks

/-- The logical block address of a CDB of sixteen bytes. -/
def setLba16 (cdb : List UInt8) (lba : UInt64) : List UInt8 :=
  scsiSetUint32 (scsiSetUint32 cdb 2 (lba >>> 32).toUInt32) 6 (lba &&& 0xffffffff).toUInt32

/-- The logical block address and the number of blocks of a CDB of sixteen bytes. -/
def setBlocks16 (cdb : List UInt8) (lba : UInt64) (blocks : UInt32) : List UInt8 :=
  scsiSetUint32 (setLba16 cdb lba) 10 blocks

/-- A task that transfers data in a direction. -/
def transferTask (cdb : List UInt8) (xferDir : XferDir) (xferlen : UInt32) : ScsiTask :=
  { cdb, xferDir := if xferlen ≠ 0 then xferDir else .none, expxferlen := xferlen }

/-- `scsi_cdb_read6`. The number of blocks is an `int`. -/
def scsiCdbRead6 (lba xferlen blocksize : UInt32) : Option ScsiTask :=
  let numBlocks := (xferlen / blocksize).toInt32
  if numBlocks > 256 then none
  else if lba > 0x1fffff then none
  else
    let cdb := (List.replicate 6 (0 : UInt8)).set 0 0x08
    let cdb := cdb.set 1 ((lba >>> 16) &&& 0x1f).toUInt8
    let cdb := cdb.set 2 ((lba >>> 8) &&& 0xff).toUInt8
    let cdb := cdb.set 3 (lba &&& 0xff).toUInt8
    let cdb := if numBlocks < 256 then cdb.set 4 (numBlocks &&& 0xff).toUInt32.toUInt8 else cdb
    some (transferTask cdb .read xferlen)

/-- `scsi_cdb_read10`. -/
def scsiCdbRead10 (lba xferlen blocksize rdprotect dpo fua fuaNv groupNumber : UInt32) :
    ScsiTask :=
  let cdb := startCdb 10 0x28 (rwFlags rdprotect dpo fua fuaNv)
  let cdb := setBlocks10 cdb lba (xferlen / blocksize)
  transferTask (setGroup cdb 6 groupNumber) .read xferlen

/-- `scsi_cdb_read12`. -/
def scsiCdbRead12 (lba xferlen blocksize rdprotect dpo fua fuaNv groupNumber : UInt32) :
    ScsiTask :=
  let cdb := startCdb 12 0xa8 (rwFlags rdprotect dpo fua fuaNv)
  let cdb := setBlocks12 cdb lba (xferlen / blocksize)
  transferTask (setGroup cdb 10 groupNumber) .read xferlen

/-- `scsi_cdb_read16`. -/
def scsiCdbRead16 (lba : UInt64) (xferlen blocksize rdprotect dpo fua fuaNv groupNumber : UInt32) :
    ScsiTask :=
  let cdb := startCdb 16 0x88 (rwFlags rdprotect dpo fua fuaNv)
  let cdb := setBlocks16 cdb lba (xferlen / blocksize)
  transferTask (setGroup cdb 14 groupNumber) .read xferlen

/-- `scsi_cdb_write10`. -/
def scsiCdbWrite10 (lba xferlen blocksize wrprotect dpo fua fuaNv groupNumber : UInt32) :
    ScsiTask :=
  let cdb := startCdb 10 0x2a (rwFlags wrprotect dpo fua fuaNv)
  let cdb := setBlocks10 cdb lba (xferlen / blocksize)
  transferTask (setGroup cdb 6 groupNumber) .write xferlen

/-- `scsi_cdb_write12`. -/
def scsiCdbWrite12 (lba xferlen blocksize wrprotect dpo fua fuaNv groupNumber : UInt32) :
    ScsiTask :=
  let cdb := startCdb 12 0xaa (rwFlags wrprotect dpo fua fuaNv)
  let cdb := setBlocks12 cdb lba (xferlen / blocksize)
  transferTask (setGroup cdb 10 groupNumber) .write xferlen

/-- `scsi_cdb_write16`. -/
def scsiCdbWrite16 (lba : UInt64)
    (xferlen blocksize wrprotect dpo fua fuaNv groupNumber : UInt32) : ScsiTask :=
  let cdb := startCdb 16 0x8a (rwFlags wrprotect dpo fua fuaNv)
  let cdb := setBlocks16 cdb lba (xferlen / blocksize)
  transferTask (setGroup cdb 14 groupNumber) .write xferlen

/-- `scsi_cdb_writeatomic16`. -/
def scsiCdbWriteatomic16 (lba : UInt64) (xferlen blocksize wrprotect dpo fua groupNumber : UInt32) :
    ScsiTask :=
  let cdb := startCdb 16 0x9c (rwFlags wrprotect dpo fua 0)
  let cdb := scsiSetUint16 (setLba16 cdb lba) 12 (xferlen / blocksize).toUInt16
  transferTask (setGroup cdb 14 groupNumber) .write xferlen

/-- A task that sends data to verify, if there is any to compare with. -/
def verifyTask (cdb : List UInt8) (xferlen bytchk : UInt32) : ScsiTask :=
  if xferlen ≠ 0 ∧ bytchk ≠ 0 then { cdb, xferDir := .write, expxferlen := xferlen }
  else { cdb, xferDir := .none, expxferlen := 0 }

/-- `scsi_cdb_verify10`. -/
def scsiCdbVerify10 (lba xferlen vprotect dpo bytchk blocksize : UInt32) : ScsiTask :=
  let cdb := startCdb 10 0x2f (verifyFlags vprotect dpo bytchk)
  verifyTask (setBlocks10 cdb lba (xferlen / blocksize)) xferlen bytchk

/-- `scsi_cdb_verify12`. -/
def scsiCdbVerify12 (lba xferlen vprotect dpo bytchk blocksize : UInt32) : ScsiTask :=
  let cdb := startCdb 12 0xaf (verifyFlags vprotect dpo bytchk)
  verifyTask (setBlocks12 cdb lba (xferlen / blocksize)) xferlen bytchk

/-- `scsi_cdb_verify16`. -/
def scsiCdbVerify16 (lba : UInt64) (xferlen vprotect dpo bytchk blocksize : UInt32) : ScsiTask :=
  let cdb := startCdb 16 0x8f (verifyFlags vprotect dpo bytchk)
  verifyTask (setBlocks16 cdb lba (xferlen / blocksize)) xferlen bytchk

/-! ## Decoding -/

/-- `scsi_get_uint64`. -/
def scsiGetUint64 (c : List UInt8) (i : Nat) : UInt64 :=
  ((scsiGetUint32 c i).toUInt64 <<< 32) ||| (scsiGetUint32 c (i + 4)).toUInt64

/-- `(cdb[1] >> 5) & 0x7`. -/
def cdbProtect (cdb : List UInt8) : UInt8 := (byte cdb 1 >>> 5) &&& 0x7

/-- `!!(cdb[1] & mask)`. -/
def cdbFlag (cdb : List UInt8) (mask : UInt8) : UInt8 :=
  if byte cdb 1 &&& mask ≠ 0 then 1 else 0

/-- `struct scsi_read6_cdb`. -/
structure ScsiRead6Cdb where
  opcode : UInt8
  lba : UInt32
  transferLength : UInt16
  control : UInt8
  deriving DecidableEq, Repr

/-- `struct scsi_read10_cdb`. -/
structure ScsiRead10Cdb where
  opcode : UInt8
  (rdprotect dpo fua fuaNv : UInt8)
  lba : UInt32
  group : UInt8
  transferLength : UInt16
  control : UInt8
  deriving DecidableEq, Repr

/-- `struct scsi_read12_cdb`. -/
structure ScsiRead12Cdb where
  opcode : UInt8
  (rdprotect dpo fua rarc fuaNv : UInt8)
  lba : UInt32
  transferLength : UInt32
  group : UInt8
  control : UInt8
  deriving DecidableEq, Repr

/-- `struct scsi_read16_cdb`. -/
structure ScsiRead16Cdb where
  opcode : UInt8
  (rdprotect dpo fua rarc fuaNv : UInt8)
  lba : UInt64
  transferLength : UInt32
  group : UInt8
  control : UInt8
  deriving DecidableEq, Repr

/-- `struct scsi_verify10_cdb`. -/
structure ScsiVerify10Cdb where
  opcode : UInt8
  (vrprotect dpo bytchk : UInt8)
  lba : UInt32
  group : UInt8
  verificationLength : UInt16
  control : UInt8
  deriving DecidableEq, Repr

/-- `struct scsi_verify12_cdb`. -/
structure ScsiVerify12Cdb where
  opcode : UInt8
  (vrprotect dpo bytchk : UInt8)
  lba : UInt32
  verificationLength : UInt32
  group : UInt8
  control : UInt8
  deriving DecidableEq, Repr

/-- `struct scsi_verify16_cdb`. -/
structure ScsiVerify16Cdb where
  opcode : UInt8
  (vrprotect dpo bytchk : UInt8)
  lba : UInt64
  verificationLength : UInt32
  group : UInt8
  control : UInt8
  deriving DecidableEq, Repr

/-- `struct scsi_write10_cdb`. -/
structure ScsiWrite10Cdb where
  opcode : UInt8
  (wrprotect dpo fua fuaNv : UInt8)
  lba : UInt32
  group : UInt8
  transferLength : UInt16
  control : UInt8
  deriving DecidableEq, Repr

/-- `struct scsi_write12_cdb`. -/
structure ScsiWrite12Cdb where
  opcode : UInt8
  (wrprotect dpo fua fuaNv : UInt8)
  lba : UInt32
  transferLength : UInt32
  group : UInt8
  control : UInt8
  deriving DecidableEq, Repr

/-- `struct scsi_write16_cdb`. Its `lba` has 32 bits. -/
structure ScsiWrite16Cdb where
  opcode : UInt8
  (wrprotect dpo fua fuaNv : UInt8)
  lba : UInt32
  transferLength : UInt32
  group : UInt8
  control : UInt8
  deriving DecidableEq, Repr

/-- `struct scsi_writeatomic16_cdb`. Its `lba` has 32 bits. -/
structure ScsiWriteatomic16Cdb where
  opcode : UInt8
  (wrprotect dpo fua : UInt8)
  lba : UInt32
  transferLength : UInt16
  group : UInt8
  control : UInt8
  deriving DecidableEq, Repr

/-- What `scsi_cdb_unmarshall` returns a pointer to. -/
inductive ScsiCdb where
  | read6 (s : ScsiRead6Cdb)
  | read10 (s : ScsiRead10Cdb)
  | read12 (s : ScsiRead12Cdb)
  | read16 (s : ScsiRead16Cdb)
  | verify10 (s : ScsiVerify10Cdb)
  | verify12 (s : ScsiVerify12Cdb)
  | verify16 (s : ScsiVerify16Cdb)
  | write10 (s : ScsiWrite10Cdb)
  | write12 (s : ScsiWrite12Cdb)
  | write16 (s : ScsiWrite16Cdb)
  | writeatomic16 (s : ScsiWriteatomic16Cdb)
  deriving DecidableEq, Repr

/-- `scsi_read6_cdb_unmarshall`. -/
def scsiRead6CdbUnmarshall (cdb : List UInt8) : ScsiRead6Cdb where
  opcode := 0x08
  lba := scsiGetUint32 cdb 0 &&& 0x001fffff
  transferLength := (byte cdb 4).toUInt16
  control := byte cdb 5

/-- `scsi_read10_cdb_unmarshall`. -/
def scsiRead10CdbUnmarshall (cdb : List UInt8) : ScsiRead10Cdb where
  opcode := 0x28
  rdprotect := cdbProtect cdb
  dpo := cdbFlag cdb 0x10
  fua := cdbFlag cdb 0x08
  fuaNv := cdbFlag cdb 0x02
  lba := scsiGetUint32 cdb 2
  group := byte cdb 6 &&& 0x1f
  transferLength := scsiGetUint16 cdb 7
  control := byte cdb 9

/-- `scsi_read12_cdb_unmarshall`. -/
def scsiRead12CdbUnmarshall (cdb : List UInt8) : ScsiRead12Cdb where
  opcode := 0xa8
  rdprotect := cdbProtect cdb
  dpo := cdbFlag cdb 0x10
  fua := cdbFlag cdb 0x08
  rarc := cdbFlag cdb 0x04
  fuaNv := cdbFlag cdb 0x02
  lba := scsiGetUint32 cdb 2
  transferLength := scsiGetUint32 cdb 6
  group := byte cdb 10 &&& 0x1f
  control := byte cdb 11

/-- `scsi_read16_cdb_unmarshall`. -/
def scsiRead16CdbUnmarshall (cdb : List UInt8) : ScsiRead16Cdb where
  opcode := 0x88
  rdprotect := cdbProtect cdb
  dpo := cdbFlag cdb 0x10
  fua := cdbFlag cdb 0x08
  rarc := cdbFlag cdb 0x04
  fuaNv := cdbFlag cdb 0x02
  lba := scsiGetUint64 cdb 2
  transferLength := scsiGetUint32 cdb 10
  group := byte cdb 14 &&& 0x1f
  control := byte cdb 15

/-- `scsi_verify10_cdb_unmarshall`. -/
def scsiVerify10CdbUnmarshall (cdb : List UInt8) : ScsiVerify10Cdb where
  opcode := 0x2f
  vrprotect := cdbProtect cdb
  dpo := cdbFlag cdb 0x10
  bytchk := cdbFlag cdb 0x02
  lba := scsiGetUint32 cdb 2
  group := byte cdb 6 &&& 0x1f
  verificationLength := scsiGetUint16 cdb 7
  control := byte cdb 9

/-- `scsi_verify12_cdb_unmarshall`. -/
def scsiVerify12CdbUnmarshall (cdb : List UInt8) : ScsiVerify12Cdb where
  opcode := 0xaf
  vrprotect := cdbProtect cdb
  dpo := cdbFlag cdb 0x10
  bytchk := cdbFlag cdb 0x02
  lba := scsiGetUint32 cdb 2
  verificationLength := scsiGetUint32 cdb 6
  group := byte cdb 10 &&& 0x1f
  control := byte cdb 11

/-- `scsi_verify16_cdb_unmarshall`. -/
def scsiVerify16CdbUnmarshall (cdb : List UInt8) : ScsiVerify16Cdb where
  opcode := 0x8f
  vrprotect := cdbProtect cdb
  dpo := cdbFlag cdb 0x10
  bytchk := cdbFlag cdb 0x02
  lba := scsiGetUint64 cdb 2
  verificationLength := scsiGetUint32 cdb 10
  group := byte cdb 14 &&& 0x1f
  control := byte cdb 15

/-- `scsi_write10_cdb_unmarshall`. -/
def scsiWrite10CdbUnmarshall (cdb : List UInt8) : ScsiWrite10Cdb where
  opcode := 0x2a
  wrprotect := cdbProtect cdb
  dpo := cdbFlag cdb 0x10
  fua := cdbFlag cdb 0x08
  fuaNv := cdbFlag cdb 0x02
  lba := scsiGetUint32 cdb 2
  group := byte cdb 6 &&& 0x1f
  transferLength := scsiGetUint16 cdb 7
  control := byte cdb 9

/-- `scsi_write12_cdb_unmarshall`. -/
def scsiWrite12CdbUnmarshall (cdb : List UInt8) : ScsiWrite12Cdb where
  opcode := 0xaa
  wrprotect := cdbProtect cdb
  dpo := cdbFlag cdb 0x10
  fua := cdbFlag cdb 0x08
  fuaNv := cdbFlag cdb 0x02
  lba := scsiGetUint32 cdb 2
  transferLength := scsiGetUint32 cdb 6
  group := byte cdb 10 &&& 0x1f
  control := byte cdb 11

/-- `scsi_write16_cdb_unmarshall`. -/
def scsiWrite16CdbUnmarshall (cdb : List UInt8) : ScsiWrite16Cdb where
  opcode := 0x8a
  wrprotect := cdbProtect cdb
  dpo := cdbFlag cdb 0x10
  fua := cdbFlag cdb 0x08
  fuaNv := cdbFlag cdb 0x02
  lba := (scsiGetUint64 cdb 2).toUInt32
  transferLength := scsiGetUint32 cdb 10
  group := byte cdb 14 &&& 0x1f
  control := byte cdb 15

/-- `scsi_writeatomic16_cdb_unmarshall`. -/
def scsiWriteatomic16CdbUnmarshall (cdb : List UInt8) : ScsiWriteatomic16Cdb where
  opcode := 0x9c
  wrprotect := cdbProtect cdb
  dpo := cdbFlag cdb 0x10
  fua := cdbFlag cdb 0x08
  lba := (scsiGetUint64 cdb 2).toUInt32
  transferLength := scsiGetUint16 cdb 12
  group := byte cdb 14 &&& 0x1f
  control := byte cdb 15

/-- `scsi_cdb_unmarshall`. -/
def scsiCdbUnmarshall (task : ScsiTask) (opcode : UInt8) : Option ScsiCdb :=
  if byte task.cdb 0 ≠ opcode then none
  else
    match opcode with
    | 0x08 => some (.read6 (scsiRead6CdbUnmarshall task.cdb))
    | 0x28 => some (.read10 (scsiRead10CdbUnmarshall task.cdb))
    | 0xa8 => some (.read12 (scsiRead12CdbUnmarshall task.cdb))
    | 0x88 => some (.read16 (scsiRead16CdbUnmarshall task.cdb))
    | 0x2f => some (.verify10 (scsiVerify10CdbUnmarshall task.cdb))
    | 0xaf => some (.verify12 (scsiVerify12CdbUnmarshall task.cdb))
    | 0x8f => some (.verify16 (scsiVerify16CdbUnmarshall task.cdb))
    | 0x2a => some (.write10 (scsiWrite10CdbUnmarshall task.cdb))
    | 0xaa => some (.write12 (scsiWrite12CdbUnmarshall task.cdb))
    | 0x8a => some (.write16 (scsiWrite16CdbUnmarshall task.cdb))
    | 0x9c => some (.writeatomic16 (scsiWriteatomic16CdbUnmarshall task.cdb))
    | _ => none

end Libiscsi
