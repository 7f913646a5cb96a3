import Libiscsi.Iovector
import Libiscsi.Queue

/-!
# Submitting SCSI commands

`iscsi_scsi_command_async`, `iscsi_send_data_out`, `iscsi_send_unsolicited_data_out` and
`iscsi_process_r2t` (`lib/iscsi-command.c`). While a reconnect is in progress a command goes to
the context that was put aside.
-/

namespace Libiscsi

section
variable (service : World → Res World)

/-! ## DATA-OUTs -/

/-- The header fields of a DATA-OUT of the command `cmd`, for `len` bytes at `offset` of which
`last` says that they end the burst. -/
def Pdu.asDataOut (pdu cmd : Pdu) (ttt offset len : UInt32) (last : Bool) : Pdu :=
  let pdu := { pdu with scsiCbdata := { pdu.scsiCbdata with task := cmd.scsiCbdata.task } }
  let pdu := { pdu with cmdsn := cmd.cmdsn }
  let pdu := pdu.setPduflags (if last then iscsiPduScsiFinal else 0)
  let pdu := pdu.setLun cmd.lun
  let pdu := pdu.setTtt ttt
  let pdu := pdu.setDatasn cmd.datasn
  let pdu := pdu.setBufferoffset offset
  let pdu := { pdu with payloadOffset := offset.toNat, payloadLen := len.toNat }
  pdu.setDataSegmentLength pdu.payloadLen

/-- The `error` exit of `iscsi_send_data_out`. -/
def dataOutError (w : World) (cmdPdu : Addr) : Res (Int × World) := do
  let outqueue ← listRemove w.iscsi.outqueue cmdPdu
  let waitpdu ← listRemove w.iscsi.waitpdu cmdPdu
  let w := w.modify fun c => (c.setOutqueue outqueue).setWaitpdu waitpdu
  let w ← invokeCallback w cmdPdu scsiStatusError
  let w ← iscsiFreePdu w cmdPdu
  .ok (-1, w)

/-- One turn of the loop of `iscsi_send_data_out`: the DATA-OUT for `len` bytes at `offset`.
`false` says that it could not be allocated. -/
def sendOneDataOut (w : World) (cmdPdu : Addr) (ttt offset len : UInt32) (last : Bool) :
    Res (Bool × World) := do
  let cmd ← w.deref cmdPdu
  match iscsiAllocatePdu w iscsiPduDataOut iscsiPduNoPdu cmd.itt
      (iscsiPduDropOnReconnect ||| iscsiPduDeleteWhenSent) with
  | (none, w) => .ok (false, w)
  | (some a, w) => do
    let pdu ← w.deref a
    let w := w.setPdu a (pdu.asDataOut cmd ttt offset len last)
    let w := w.setPdu cmdPdu { cmd with datasn := cmd.datasn + 1 }
    let w ← iscsiQueuePdu service w a
    .ok (true, w)

/-- `iscsi_send_data_out`. The number bounds the turns: with a segment length that is not zero
each takes at least one byte off `tot_len`. -/
def iscsiSendDataOut : Nat → World → Addr → UInt32 → UInt32 → UInt32 → Res (Int × World)
  | fuel, w, cmdPdu, ttt, offset, totLen =>
    if totLen > 0 then
      match fuel with
      | 0 => .error .diverges
      | fuel + 1 => do
        let len := min totLen w.iscsi.targetMaxRecvDataSegmentLength
        let (sent, w) ← sendOneDataOut service w cmdPdu ttt offset len (totLen == len)
        if sent then iscsiSendDataOut fuel w cmdPdu ttt (offset + len) (totLen - len)
        else dataOutError w cmdPdu
    else .ok (0, w)

/-- `iscsi_send_unsolicited_data_out`. -/
def iscsiSendUnsolicitedDataOut (w : World) (a : Addr) : Res (Int × World) := do
  let pdu ← w.deref a
  let len := min pdu.expxferlen w.iscsi.firstBurstLength - UInt32.ofNat pdu.payloadLen
  iscsiSendDataOut service len.toNat w a 0xffffffff (UInt32.ofNat pdu.payloadLen) len

/-- `iscsi_process_r2t`. -/
def iscsiProcessR2t (w : World) (a : Addr) (inPdu : InPdu) : Res (Int × World) := do
  let ttt := scsiGetUint32 inPdu.hdr 20
  let offset := scsiGetUint32 inPdu.hdr 40
  let len := scsiGetUint32 inPdu.hdr 44
  let pdu ← w.deref a
  let w := w.setPdu a { pdu with datasn := 0 }
  let (_, w) ← iscsiSendDataOut service len.toNat w a ttt offset len
  .ok (0, w)

/-! ## Commands -/

/-- The length of the immediate data of a command. -/
def immediateDataLen (c : Context) (task : ScsiTask) : UInt32 :=
  if task.xferDir = .write ∧ c.useImmediateData then
    min (min task.expxferlen c.firstBurstLength) c.targetMaxRecvDataSegmentLength
  else 0

/-- More data follows as unsolicited DATA-OUTs: the F flag is not set in the command. -/
def unsolicitedFollows (c : Context) (task : ScsiTask) : Bool :=
  task.xferDir = .write ∧ ¬c.useInitialR2t ∧ immediateDataLen c task < task.expxferlen ∧
    immediateDataLen c task < c.firstBurstLength

/-- The flags of a command. -/
def commandFlags (c : Context) (task : ScsiTask) : UInt8 :=
  let flags := iscsiPduScsiFinal ||| iscsiPduScsiAttrSimple
  match task.xferDir with
  | .none => flags
  | .read => flags ||| iscsiPduScsiRead
  | .write =>
    let flags := flags ||| iscsiPduScsiWrite
    if unsolicitedFollows c task then flags &&& ~~~iscsiPduScsiFinal else flags

/-- The header fields of the command for a task, but for its CmdSN and its CDB. -/
def Pdu.asCommand (pdu : Pdu) (c : Context) (a : Addr) (lun : UInt32) (t : TaskPtr)
    (task : ScsiTask) (cb : Option Callback) (privateData : Nat) : Pdu :=
  let pdu := { pdu with
    scsiCbdata := { task := some t, callback := cb, privateData }
    payloadOffset := 0
    payloadLen := (immediateDataLen c task).toNat }
  let pdu := if task.xferDir = .write ∧ c.useImmediateData then
    pdu.setDataSegmentLength pdu.payloadLen else pdu
  let pdu := pdu.setPduflags (commandFlags c task)
  let pdu := { pdu with callback := some .scsiResponseCb, privateData := a }
  let pdu := { pdu.setLun lun with lun }
  pdu.setExpxferlen task.expxferlen

/-- The part of `iscsi_scsi_command_async` that fills in the PDU of the command, which takes the
next CmdSN. -/
def prepareCommand (w : World) (a : Addr) (lun : UInt32) (t : TaskPtr) (cb : Option Callback)
    (privateData : Nat) : Res World := do
  let task := w.tasks t
  let pdu ← w.deref a
  let w := w.setPdu a (pdu.asCommand w.iscsi a lun t task cb privateData)
  let w := w.modifyTask t fun task => { task with ptr := some a, lun }
  let cmdsn := w.iscsi.cmdsn
  let w := w.modify fun c => c.setCmdsn (cmdsn + 1)
  let w ← iscsiPduSetCmdsn w a cmdsn
  let pdu ← w.deref a
  .ok ((w.setPdu a (pdu.setCdb task.cdb)).log (.submitted a t lun cb privateData))

/-- The part of `iscsi_scsi_command_async` that queues the PDU and the unsolicited data that
follows it. -/
def submitCommand (w : World) (a : Addr) (t : TaskPtr) : Res (Int × World) := do
  let more := unsolicitedFollows w.iscsi (w.tasks t)
  let w ← iscsiQueuePdu service w a
  if more then
    let (_, w) ← iscsiSendUnsolicitedDataOut service w a
    .ok (0, w)
  else .ok (0, w)

/-- The part of `iscsi_scsi_command_async` from the allocation of the PDU on. -/
def queueCommand (w : World) (lun : UInt32) (t : TaskPtr) (cb : Option Callback)
    (privateData : Nat) : Res (Int × World) := do
  let (itt, w) := iscsiIttPostIncrement w
  match iscsiAllocatePdu w iscsiPduScsiRequest iscsiPduScsiResponse itt 0 with
  | (none, w) => .ok (-1, w)
  | (some a, w) => do
    let w ← prepareCommand w a lun t cb privateData
    submitCommand service w a t

/-- `iscsi_scsi_command_async` on the context that takes the command. `d` is the buffer that is
made the only data-out vector of the task. -/
def commandHere (w : World) (lun : UInt32) (t : TaskPtr) (cb : Option Callback)
    (d : Option ScsiIovec) (privateData : Nat) : Res (Int × World) :=
  if w.iscsi.sessionType ≠ .normal then .ok (-1, w)
  else if ¬w.iscsi.isLoggedin ∧ ¬w.iscsi.pendingReconnect then .ok (-1, w)
  else
    match d with
    | some iov =>
      let (ok, w) := w.malloc
      if !ok then .ok (-1, w)
      else
        let w := w.modifyTask t fun task => scsiTaskSetIovOut task [iov]
        queueCommand service w lun t cb privateData
    | none => queueCommand service w lun t cb privateData

/-- `iscsi_scsi_command_async`. -/
def iscsiScsiCommandAsync (w : World) (lun : UInt32) (t : TaskPtr) (cb : Option Callback)
    (d : Option ScsiIovec) (privateData : Nat) : Res (Int × World) :=
  match w.olds with
  | [] => commandHere service w lun t cb d privateData
  | old :: olds => do
    let (ret, w') ← commandHere service { w with iscsi := old, olds } lun t cb d privateData
    .ok (ret, { w' with iscsi := w.iscsi, olds := w'.iscsi :: w'.olds })

end

end Libiscsi
