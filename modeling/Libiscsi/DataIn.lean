import Libiscsi.CancelTask
import Libiscsi.IovectorTransfer

/-!
# Data-In

How the data of a READ reach the application. The data segment of a Data-In is read into the
buffer of the `iscsi_in_pdu`, or, when the task has vectors for it, past that buffer straight into
the memory they point to (`iscsi_read_from_socket`, `lib/socket.c`). The PDU is then processed
(`iscsi_process_scsi_data_in`, `iscsi_process_scsi_reply`, `lib/iscsi-command.c`): data in the
buffer are collected in `pdu->indata` and become `task->datain` at the end of the command.
-/

namespace Libiscsi

/-! ## Sense data -/

/-- `parse_sense_spec`, for the three bytes at `i`. -/
def parseSenseSpec (sense : ScsiSense) (sb : List UInt8) (i : Nat) : ScsiSense :=
  if byte sb i &&& 0x80 = 0 then sense
  else
    let sense := { sense with
      senseSpecific := true, illParamInCdb := byte sb i &&& 0x40 != 0 }
    let sense := if byte sb i &&& 8 ≠ 0 then
      { sense with bitPointerValid := true, bitPointer := byte sb i &&& 7 } else sense
    { sense with fieldPointer := scsiGetUint16 sb (i + 1) }

/-- The descriptor at `p` is parsed. -/
def parseSenseDescriptor (sense : ScsiSense) (sb : List UInt8) (p : Nat) : ScsiSense :=
  if byte sb p = 0 then
    if byte sb (p + 1) = 0x0a ∧ byte sb (p + 2) &&& 0x80 ≠ 0 then
      { sense with
        infoValid := true
        information := (scsiGetUint32 sb (p + 4)).toNat * 2 ^ 32 +
          (scsiGetUint32 sb (p + 8)).toNat }
    else sense
  else if byte sb p = 2 then
    if byte sb (p + 1) = 0x06 then parseSenseSpec sense sb (p + 4) else sense
  else sense

/-- `parse_sense_descriptors`, from `p` to `limit`. The number bounds the turns: each passes at
least four bytes. -/
def parseSenseDescriptors : Nat → ScsiSense → List UInt8 → Nat → Nat → ScsiSense
  | 0, sense, _, _, _ => sense
  | fuel + 1, sense, sb, p, limit =>
    if p < limit then
      if byte sb (p + 1) < 4 then sense
      else
        parseSenseDescriptors fuel (parseSenseDescriptor sense sb p) sb
          (p + (byte sb (p + 1)).toNat) limit
    else sense

/-- `scsi_parse_sense_data`. -/
def scsiParseSenseData (sense : ScsiSense) (sb : List UInt8) : ScsiSense :=
  let sense := { sense with errorType := byte sb 0 &&& 0x7f }
  if sense.errorType = 0x70 ∨ sense.errorType = 0x71 then
    let sense := { sense with key := byte sb 2 &&& 0x0f }
    let sense := if byte sb 0 &&& 0x80 ≠ 0 then
      { sense with infoValid := true, information := (scsiGetUint32 sb 3).toNat } else sense
    parseSenseSpec { sense with ascq := scsiGetUint16 sb 12 } sb 15
  else if sense.errorType = 0x72 ∨ sense.errorType = 0x73 then
    let sense := { sense with key := byte sb 1 &&& 0x0f, ascq := scsiGetUint16 sb 2 }
    parseSenseDescriptors (byte sb 7).toNat sense sb 8 (8 + (byte sb 7).toNat)
  else sense

/-! ## The end of a command -/

/-- `ISCSI_PDU_DATA_RESIDUAL_OVERFLOW | ISCSI_PDU_DATA_RESIDUAL_UNDERFLOW`. -/
def dataResidualFlags : UInt8 := iscsiPduDataResidualOverflow ||| iscsiPduDataResidualUnderflow

/-- The residual that a response reports. -/
def ScsiTask.withResidual (task : ScsiTask) (inPdu : InPdu) : ScsiTask :=
  if inPdu.flags &&& dataResidualFlags ≠ 0 then
    { task with
      residual := scsiGetUint32 inPdu.hdr 44
      residualStatus := if inPdu.flags &&& iscsiPduDataResidualUnderflow ≠ 0 then .underflow
        else .overflow }
  else { task with residualStatus := .noResidual, residual := 0 }

/-- A callback with a status, and a return value. -/
def answer (w : World) (a : Addr) (status : Status) (r : Int) : Res (Int × World) := do
  let w ← invokeCallback w a status
  .ok (r, w)

/-- What was collected in `pdu->indata` is handed to the task. -/
def takeIndata (w : World) (a : Addr) (pdu : Pdu) (t : TaskPtr) : World :=
  (w.modifyTask t fun task => { task with datain := pdu.indata }).setPdu a { pdu with indata := [] }

/-- The statuses of a response that are passed on as they are. -/
def passedStatuses : List Status :=
  [scsiStatusReservationConflict, scsiStatusTaskSetFull, scsiStatusAcaActive,
    scsiStatusTaskAborted, scsiStatusBusy]

/-- The branches of `iscsi_process_scsi_reply` for the status. -/
def replyStatus (w : World) (a : Addr) (pdu : Pdu) (t : TaskPtr) (inPdu : InPdu) :
    Res (Int × World) :=
  let status := (byte inPdu.hdr 3).toNat
  if status = scsiStatusGood ∨ status = scsiStatusConditionMet then
    answer (takeIndata w a pdu t) a scsiStatusGood 0
  else if status = scsiStatusCheckCondition then
    let (ok, w) := w.malloc
    if !ok then .ok (0, w.modifyTask t fun task => { task with datain := [] })
    else
      let datain := inPdu.payload
      answer (w.modifyTask t fun task => { task with
        datain, sense := scsiParseSenseData task.sense (datain.drop 2) }) a
        scsiStatusCheckCondition 0
  else if status ∈ passedStatuses then answer w a status 0
  else answer w a scsiStatusError (-1)

/-- `iscsi_process_scsi_reply`. -/
def iscsiProcessScsiReply (w : World) (a : Addr) (inPdu : InPdu) : Res (Int × World) := do
  let pdu ← w.deref a
  if inPdu.flags &&& iscsiPduDataFinal = 0 then answer w a scsiStatusError (-1)
  else if inPdu.flags &&& iscsiPduDataAckRequested ≠ 0 then answer w a scsiStatusError (-1)
  else
    match pdu.scsiCbdata.task with
    | none => .error .nullDeref
    | some t =>
      if inPdu.flags &&& dataResidualFlags ≠ 0 ∧ byte inPdu.hdr 2 ≠ 0 then
        answer (w.modifyTask t fun task => { task with
          residualStatus := .noResidual, residual := 0 }) a scsiStatusError (-1)
      else replyStatus (w.modifyTask t (·.withResidual inPdu)) a pdu t inPdu

/-- A Data-In that ends the command: it is the last one and has the status. -/
def InPdu.endsCommand (inPdu : InPdu) : Bool :=
  inPdu.flags &&& iscsiPduDataFinal != 0 && inPdu.flags &&& iscsiPduDataContainsStatus != 0

/-- The data of a Data-In are added to `pdu->indata`, unless the task has vectors for them. -/
def collectData (w : World) (a : Addr) (t : TaskPtr) (inPdu : InPdu) : Res (Int × World) :=
  if (w.tasks t).iovectorIn.iov.isNone then
    iscsiAddIndata w a ((inPdu.data.getD []).take (iscsiGetPduDataSize inPdu.hdr))
  else .ok (0, w)

/-- `iscsi_process_scsi_data_in`: the return value and `*is_finished`. -/
def iscsiProcessScsiDataIn (w : World) (a : Addr) (inPdu : InPdu) : Res (Int × Bool × World) := do
  let pdu ← w.deref a
  if inPdu.flags &&& iscsiPduDataAckRequested ≠ 0 then
    let (r, w) ← answer w a scsiStatusError (-1)
    .ok (r, true, w)
  else
    match pdu.scsiCbdata.task with
    | none => .error .nullDeref
    | some t =>
      let (r, w) ← collectData w a t inPdu
      if r ≠ 0 then .ok (-1, true, w)
      else if !inPdu.endsCommand then .ok (0, false, w)
      else
        let pdu ← w.deref a
        let w := w.modifyTask t (·.withResidual inPdu)
        let (r, w) ← answer (takeIndata w a pdu t) a (byte inPdu.hdr 3).toNat 0
        .ok (r, true, w)

/-! ## A PDU that was read -/

/-- The PDU leaves `waitpdu` and is freed. -/
def dropWaiting (w : World) (a : Addr) : Res World := do
  let waitpdu ← listRemove w.iscsi.waitpdu a
  iscsiFreePdu (w.modify (·.setWaitpdu waitpdu)) a

/-- The part of `iscsi_process_pdu` for Data-In and SCSI responses whose digests are right. -/
def processScsiPdu (w : World) (inPdu : InPdu) : Res (Int × World) := do
  match ← findItt w inPdu.itt w.iscsi.waitpdu with
  | none => .ok (-1, w)
  | some a =>
    let pdu ← w.deref a
    if inPdu.opcode = iscsiPduDataIn ∧ pdu.responseOpcode = iscsiPduScsiResponse then
      let (r, finished, w) ← iscsiProcessScsiDataIn w a inPdu
      if r ≠ 0 ∨ finished then
        let w ← dropWaiting w a
        .ok (r, w)
      else .ok (0, w)
    else if inPdu.opcode = iscsiPduScsiResponse ∧ pdu.responseOpcode = iscsiPduScsiResponse then
      let (r, w) ← iscsiProcessScsiReply w a inPdu
      let w ← dropWaiting w a
      .ok (r, w)
    else .ok (-1, w)

/-! ## Reading the data segment -/

/-- Bytes are stored at addresses, as many as there are. -/
def storeAt (mem : Nat → UInt8) : List Nat → List UInt8 → Nat → UInt8
  | x :: addrs, b :: bytes => storeAt (Function.update mem x b) addrs bytes
  | _, _ => mem

/-- `iscsi_get_scsi_task_iovector_in`: the task that has vectors for the data. -/
def iscsiGetScsiTaskIovectorIn (w : World) (inPdu : InPdu) : Res (Option TaskPtr) := do
  if inPdu.opcode ≠ iscsiPduDataIn then .ok none
  else
    match ← findItt w inPdu.itt w.iscsi.waitpdu with
    | none => .ok none
    | some a =>
      let pdu ← w.deref a
      match pdu.scsiCbdata.task with
      | none => .error .nullDeref
      | some t => .ok (if (w.tasks t).iovectorIn.iov.isNone then none else some t)

/-- A PDU on its way from the target: its header, its data segment with the padding, and how the
socket cuts them: each `recv` or `readv` returns at most one byte and `n` after it. -/
structure Inbound where
  hdr : List UInt8
  stream : List UInt8
  cuts : List Nat
  deriving DecidableEq, Repr

/-- One `recv` or `readv` of the data segment, of which at most `n + 1` bytes are there. `none`
stands for the error exit. -/
def readOnce (w : World) (inPdu : InPdu) (stream : List UInt8) (n : Nat) :
    Res (Option (World × InPdu × List UInt8)) := do
  let padding := iscsiGetPduPaddingSize inPdu.hdr
  let count := iscsiGetPduDataSize inPdu.hdr + padding - inPdu.dataPos
  match ← iscsiGetScsiTaskIovectorIn w inPdu with
  | some t =>
    if count > padding then
      let offset := (scsiGetUint32 inPdu.hdr 40).toNat
      match iovectorSelect (w.tasks t).iovectorIn ((inPdu.dataPos + offset) % 2 ^ 32)
        (count - padding) with
      | (_, none) => .ok none
      | (iovectorIn, some sel) =>
        let bytes := stream.take (min (n + 1) (count - padding))
        let w := { w with mem := storeAt w.mem (iovecAddrs sel) bytes }
        .ok (some (w.modifyTask t fun task => { task with iovectorIn },
          { inPdu with dataPos := inPdu.dataPos + bytes.length }, stream.drop bytes.length))
    else
      let bytes := stream.take (min (n + 1) count)
      .ok (some (w, { inPdu with dataPos := inPdu.dataPos + bytes.length },
        stream.drop bytes.length))
  | none =>
    let bytes := stream.take (min (n + 1) count)
    let (ok, w) := if inPdu.data.isNone then w.malloc else (true, w)
    if !ok then .ok none
    else
      .ok (some (w, { inPdu with
        data := some (inPdu.data.getD [] ++ bytes)
        dataPos := inPdu.dataPos + bytes.length }, stream.drop bytes.length))

/-- The data segment is read. When the cuts are used up the rest arrives at once; the number
bounds the turns, each of which reads at least one byte. -/
def readData : Nat → World → InPdu → List UInt8 → List Nat → Res (Option (World × InPdu))
  | 0, _, _, _, _ => .error .diverges
  | fuel + 1, w, inPdu, stream, cuts => do
    let size := iscsiGetPduDataSize inPdu.hdr + iscsiGetPduPaddingSize inPdu.hdr
    if inPdu.dataPos < size then
      match ← readOnce w inPdu stream (cuts.headD size) with
      | none => .ok none
      | some (w, inPdu, stream) => readData fuel w inPdu stream cuts.tail
    else .ok (some (w, inPdu))

/-- A PDU is read by `iscsi_read_from_socket` and processed. The return value is not zero when the
session is given up. -/
def receivePdu (w : World) (x : Inbound) : Res (Int × World) := do
  if iscsiGetPduDataSize x.hdr > w.iscsi.initiatorMaxRecvDataSegmentLength.toNat then .ok (-1, w)
  else
    match ← readData (x.stream.length + 1) w { hdr := x.hdr } x.stream x.cuts with
    | none => .ok (-1, w)
    | some (w, inPdu) => processScsiPdu w inPdu

/-- The command is no longer waited for, or the session is given up: what has been received
of it is all there will be. -/
def receiveAll : List Inbound → World → Addr → Res World
  | [], w, _ => .ok w
  | x :: rest, w, a => do
    let (r, w) ← receivePdu w x
    if r ≠ 0 ∨ (w.pdus a).isNone then .ok w else receiveAll rest w a

end Libiscsi
