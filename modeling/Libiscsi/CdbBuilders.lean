import Libiscsi.CdbCorrect

/-!
# CDBs of the other commands

The builders `scsi_cdb_*` of commands other than those that read, write and verify blocks
(`lib/scsi-lowlevel.c`), when the allocations succeed. An argument of type `int` that is only tested
is a `Bool`; any other one is given by its 32 bits. UNMAP is in `Unmap`.
-/

namespace Libiscsi

/-- `cdb[i] |= v`. -/
def orByte (cdb : List UInt8) (i : Nat) (v : UInt8) : List UInt8 := cdb.set i (byte cdb i ||| v)

/-- `if (b) cdb[i] |= mask`; a byte to which no bit is added stays the same. -/
def orIf (cdb : List UInt8) (i : Nat) (b : Bool) (mask : UInt8) : List UInt8 :=
  orByte cdb i (if b then mask else 0)

/-- The bytes of a CDB of `size` bytes with an opcode. -/
def opcodeCdb (size : Nat) (opcode : UInt8) : List UInt8 := (List.replicate size 0).set 0 opcode

/-- A task without data. -/
def plainTask (cdb : List UInt8) : ScsiTask := { cdb, xferDir := .none, expxferlen := 0 }

/-! ## Defects and the table of contents -/

/-- `scsi_cdb_readdefectdata10`. -/
def scsiCdbReaddefectdata10 (reqPlist reqGlist : Bool) (defectListFormat : UInt32)
    (allocLen : UInt16) : ScsiTask :=
  let cdb := opcodeCdb 10 0x37
  let cdb := orIf cdb 2 reqPlist 0x10
  let cdb := orIf cdb 2 reqGlist 0x08
  let cdb := orByte cdb 2 (defectListFormat &&& 0x07).toUInt8
  let cdb := scsiSetUint16 cdb 7 allocLen
  { cdb, xferDir := .read, expxferlen := allocLen.toUInt32 }

/-- `scsi_cdb_readdefectdata12`. -/
def scsiCdbReaddefectdata12 (reqPlist reqGlist : Bool)
    (defectListFormat addressDescriptorIndex allocLen : UInt32) : ScsiTask :=
  let cdb := opcodeCdb 12 0xb7
  let cdb := orIf cdb 2 reqPlist 0x10
  let cdb := orIf cdb 2 reqGlist 0x08
  let cdb := orByte cdb 2 (defectListFormat &&& 0x07).toUInt8
  let cdb := scsiSetUint32 cdb 2 addressDescriptorIndex
  let cdb := scsiSetUint32 cdb 6 allocLen
  { cdb, xferDir := .read, expxferlen := allocLen }

/-- `scsi_cdb_readtoc`. -/
def scsiCdbReadtoc (msf : Bool) (format trackSession : UInt32) (allocLen : UInt16) :
    Option ScsiTask :=
  if format ≠ 0 ∧ format ≠ 1 ∧ format ≠ 2 then none
  else
    let cdb := opcodeCdb 10 0x43
    let cdb := orIf cdb 1 msf 0x02
    let cdb := cdb.set 2 (format &&& 0xf).toUInt8
    let cdb := if format = 0 ∨ format = 2 then cdb.set 6 (0xff &&& trackSession).toUInt8 else cdb
    let cdb := scsiSetUint16 cdb 7 allocLen
    some (transferTask cdb .read allocLen.toUInt32)

/-! ## Maintenance and inquiries -/

/-- `scsi_cdb_report_target_port_groups`. -/
def scsiCdbReportTargetPortGroups (allocLen : UInt32) : ScsiTask :=
  let cdb := (opcodeCdb 12 0xa3).set 1 0x0a
  transferTask (scsiSetUint32 cdb 6 allocLen) .read allocLen

/-- `scsi_cdb_report_supported_opcodes`. -/
def scsiCdbReportSupportedOpcodes (rctd : Bool) (options opcode sa allocLen : UInt32) : ScsiTask :=
  let cdb := (opcodeCdb 12 0xa3).set 1 0x0c
  let cdb := cdb.set 2 (options &&& 0x07).toUInt8
  let cdb := orIf cdb 2 rctd 0x80
  let cdb := cdb.set 3 opcode.toUInt8
  let cdb := scsiSetUint16 cdb 4 sa.toUInt16
  transferTask (scsiSetUint32 cdb 6 allocLen) .read allocLen

/-- `scsi_cdb_inquiry`. -/
def scsiCdbInquiry (evpd : Bool) (pageCode allocLen : UInt32) : ScsiTask :=
  let cdb := orIf (opcodeCdb 6 0x12) 1 evpd 0x01
  let cdb := cdb.set 2 pageCode.toUInt8
  transferTask (scsiSetUint16 cdb 3 allocLen.toUInt16) .read allocLen

/-! ## Persistent reservations -/

/-- `scsi_cdb_persistent_reserve_in`. -/
def scsiCdbPersistentReserveIn (sa : UInt32) (xferlen : UInt16) : ScsiTask :=
  let cdb := orByte (opcodeCdb 10 0x5e) 1 (sa &&& 0x1f).toUInt8
  transferTask (scsiSetUint16 cdb 7 xferlen) .read xferlen.toUInt32

/-- `struct scsi_persistent_reserve_out_basic`. -/
structure PersistentReserveOutBasic where
  reservationKey : UInt64
  serviceActionReservationKey : UInt64
  specIPt : Bool
  allTgPt : Bool
  aptpl : Bool
  deriving DecidableEq, Repr

/-- `scsi_set_uint64`. -/
def scsiSetUint64 (c : List UInt8) (i : Nat) (v : UInt64) : List UInt8 :=
  scsiSetUint32 (scsiSetUint32 c i ((v >>> 32) &&& 0xffffffff).toUInt32) (i + 4)
    (v &&& 0xffffffff).toUInt32

/-- `scsi_cdb_persistent_reserve_out`: the task, and its data. -/
def scsiCdbPersistentReserveOut (sa scope type : UInt32) (basic : PersistentReserveOutBasic) :
    Option (ScsiTask × List UInt8) :=
  if sa ≤ 6 then
    let buf := List.replicate 24 (0 : UInt8)
    let buf := scsiSetUint64 buf 0 basic.reservationKey
    let buf := scsiSetUint64 buf 8 basic.serviceActionReservationKey
    let buf := orIf buf 20 basic.specIPt 0x08
    let buf := orIf buf 20 basic.allTgPt 0x04
    let buf := orIf buf 20 basic.aptpl 0x01
    let cdb := orByte (opcodeCdb 10 0x5f) 1 (sa &&& 0x1f).toUInt8
    let cdb := cdb.set 2 (((scope <<< 4) &&& 0xf0) ||| (type &&& 0x0f)).toUInt8
    let cdb := scsiSetUint32 cdb 5 24
    some ({ cdb, xferDir := .write, expxferlen := 24 }, buf)
  else none

/-! ## Mode pages -/

/-- `scsi_cdb_modesense6`. -/
def scsiCdbModesense6 (dbd : Bool) (pc pageCode subPageCode : UInt32) (allocLen : UInt8) :
    ScsiTask :=
  let cdb := orIf (opcodeCdb 6 0x1a) 1 dbd 0x08
  let cdb := cdb.set 2 ((pc <<< 6) ||| pageCode).toUInt8
  let cdb := cdb.set 3 subPageCode.toUInt8
  let cdb := cdb.set 4 allocLen
  transferTask cdb .read allocLen.toUInt32

/-- `scsi_cdb_modesense10`. `alloc_len` has eight bits. -/
def scsiCdbModesense10 (llbaa dbd : Bool) (pc pageCode subPageCode : UInt32) (allocLen : UInt8) :
    ScsiTask :=
  let cdb := orIf (opcodeCdb 10 0x5a) 1 llbaa 0x10
  let cdb := orIf cdb 1 dbd 0x08
  let cdb := cdb.set 2 ((pc <<< 6) ||| pageCode).toUInt8
  let cdb := cdb.set 3 subPageCode.toUInt8
  transferTask (scsiSetUint16 cdb 7 allocLen.toUInt16) .read allocLen.toUInt32

/-- `scsi_cdb_modeselect6`. -/
def scsiCdbModeselect6 (pf sp : Bool) (paramLen : UInt32) : ScsiTask :=
  let cdb := orIf (opcodeCdb 6 0x15) 1 pf 0x10
  let cdb := orIf cdb 1 sp 0x01
  transferTask (cdb.set 4 paramLen.toUInt8) .write paramLen

/-- `scsi_cdb_modeselect10`. -/
def scsiCdbModeselect10 (pf sp : Bool) (paramLen : UInt32) : ScsiTask :=
  let cdb := orIf (opcodeCdb 10 0x55) 1 pf 0x10
  let cdb := orIf cdb 1 sp 0x01
  transferTask (scsiSetUint16 cdb 7 paramLen.toUInt16) .write paramLen

/-! ## Media and blocks -/

/-- `scsi_cdb_startstopunit`. -/
def scsiCdbStartstopunit (immed : Bool) (pcm pc : UInt32) (noFlush loej start : Bool) : ScsiTask :=
  let cdb := orIf (opcodeCdb 6 0x1b) 1 immed 0x01
  let cdb := orByte cdb 3 (pcm &&& 0x0f).toUInt8
  let cdb := orByte cdb 4 ((pc <<< 4) &&& 0xf0).toUInt8
  let cdb := orIf cdb 4 noFlush 0x04
  let cdb := orIf cdb 4 loej 0x02
  plainTask (orIf cdb 4 start 0x01)

/-- `scsi_cdb_sanitize`. -/
def scsiCdbSanitize (immed ause : Bool) (sa paramLen : UInt32) : ScsiTask :=
  let cdb := (opcodeCdb 10 0x48).set 1 (sa &&& 0x1f).toUInt8
  let cdb := orIf cdb 1 immed 0x80
  let cdb := orIf cdb 1 ause 0x20
  let cdb := scsiSetUint16 cdb 7 paramLen.toUInt16
  { cdb, xferDir := if paramLen ≠ 0 then .write else .none,
    expxferlen := (paramLen + 3) &&& 0xfffc }

/-- `cdb[1]` of WRITE SAME. -/
def writesameFlags (wrprotect : UInt32) (anchor unmap noData : Bool) : UInt8 :=
  let b := if wrprotect ≠ 0 then ((wrprotect &&& 0x7) <<< 5).toUInt8 else 0
  let b := if anchor then b ||| 0x10 else b
  let b := if unmap then b ||| 0x08 else b
  if noData then b ||| 0x01 else b

/-- `scsi_cdb_writesame10`. -/
def scsiCdbWritesame10 (wrprotect : UInt32) (anchor unmap : Bool) (lba group : UInt32)
    (numBlocks : UInt16) (datalen : UInt32) : ScsiTask :=
  let cdb := startCdb 10 0x41 (writesameFlags wrprotect anchor unmap false)
  let cdb := setGroup (scsiSetUint32 cdb 2 lba) 6 group
  let cdb := scsiSetUint16 cdb 7 numBlocks
  { cdb, xferDir := .write, expxferlen := datalen }

/-- `scsi_cdb_writesame16`. -/
def scsiCdbWritesame16 (wrprotect : UInt32) (anchor unmap : Bool) (lba : UInt64)
    (group numBlocks datalen : UInt32) : ScsiTask :=
  let cdb := startCdb 16 0x93 (writesameFlags wrprotect anchor unmap (datalen == 0))
  let cdb := setGroup (setBlocks16 cdb lba numBlocks) 14 group
  { cdb, xferDir := .write, expxferlen := datalen }

/-- `cdb[1]` of SYNCHRONIZE CACHE. -/
def synchronizecacheFlags (syncnv immed : Bool) : UInt8 :=
  let b := if syncnv then 0x04 else 0
  if immed then b ||| 0x02 else b

/-- `scsi_cdb_synchronizecache10`. -/
def scsiCdbSynchronizecache10 (lba numBlocks : UInt32) (syncnv immed : Bool) : ScsiTask :=
  plainTask (setBlocks10 (startCdb 10 0x35 (synchronizecacheFlags syncnv immed)) lba numBlocks)

/-- `scsi_cdb_synchronizecache16`. -/
def scsiCdbSynchronizecache16 (lba : UInt64) (numBlocks : UInt32) (syncnv immed : Bool) :
    ScsiTask :=
  plainTask (setBlocks16 (startCdb 16 0x91 (synchronizecacheFlags syncnv immed)) lba numBlocks)

/-- `scsi_cdb_prefetch10`. -/
def scsiCdbPrefetch10 (lba numBlocks : UInt32) (immed : Bool) (group : UInt32) : ScsiTask :=
  let cdb := startCdb 10 0x34 (if immed then 0x02 else 0)
  plainTask (scsiSetUint16 (setGroup (scsiSetUint32 cdb 2 lba) 6 group) 7 numBlocks.toUInt16)

/-- `scsi_cdb_prefetch16`. -/
def scsiCdbPrefetch16 (lba : UInt64) (numBlocks : UInt32) (immed : Bool) (group : UInt32) :
    ScsiTask :=
  let cdb := startCdb 16 0x90 (if immed then 0x02 else 0)
  plainTask (setGroup (setBlocks16 cdb lba numBlocks) 14 group)

/-- `scsi_cdb_get_lba_status`. -/
def scsiCdbGetLbaStatus (startingLba : UInt64) (allocLen : UInt32) : ScsiTask :=
  transferTask (setBlocks16 (startCdb 16 0x9e 0x12) startingLba allocLen) .read allocLen

end Libiscsi
