import Libiscsi.Queue

/-!
# Requests other than SCSI commands

`iscsi_nop_out_async` and `iscsi_send_target_nop_out` (`lib/nop.c`), `iscsi_task_mgmt_async`
(`lib/task_mgmt.c`), `iscsi_discovery_async` (`lib/discovery.c`) and `iscsi_logout_async`
(`lib/login.c`). All but the first are for immediate delivery, and carry the next CmdSN without
using it up.
-/

namespace Libiscsi

section
variable (service : World → Res World)

/-- `enum iscsi_task_mgmt_funcs`. -/
inductive TaskMgmtFunc where
  | abortTask | abortTaskSet | clearAca | clearTaskSet | lunReset | targetWarmReset
  | targetColdReset | taskReassign
  deriving DecidableEq, Repr

/-- The code of a task management function. -/
def TaskMgmtFunc.code : TaskMgmtFunc → UInt8
  | .abortTask => 0x01
  | .abortTaskSet => 0x02
  | .clearAca => 0x03
  | .clearTaskSet => 0x04
  | .lunReset => 0x05
  | .targetWarmReset => 0x06
  | .targetColdReset => 0x07
  | .taskReassign => 0x08

/-- `iscsi_pdu_add_data`, where there is data to add. -/
def addData (w : World) (a : Addr) (data : List UInt8) : Res (Int × World) :=
  if data.length > 0 then iscsiPduAddData w a data else .ok (0, w)

/-- The condition in `ISCSI_LOG` for the message that a NOP-OUT was sent. -/
def Context.logsNopOut (c : Context) : Prop :=
  (if c.nopsInFlight > 1 then 1 else 6) ≤ c.logLevel ∧ c.logFn ≠ 0

instance (c : Context) : Decidable c.logsNopOut :=
  inferInstanceAs (Decidable (_ ∧ _))

/-- `ISCSI_LOG` after a NOP-OUT was queued: the message has fields of the PDU. -/
def logNopOut (w : World) (a : Addr) : Res World :=
  if w.iscsi.logsNopOut then do
    let _ ← w.deref a
    .ok w
  else .ok w

/-- Nothing is logged after a request was queued. -/
def logNothing (w : World) (_ : Addr) : Res World := .ok w

/-- A request that was prepared is queued, and `log` tells of it. -/
def queueRequest (log : World → Addr → Res World) (w : World) (a : Addr) : Res (Int × World) := do
  let w ← iscsiQueuePdu service w a
  let w ← log w a
  .ok (0, w)

/-- A request that was not prepared is freed. -/
def dropRequest (w : World) (a : Addr) : Res (Int × World) := do
  let w ← iscsiFreePdu w a
  .ok (-1, w)

/-- A request is prepared and queued: the PDU is allocated, `prepare` sets its fields, it gets the
next CmdSN, `data` is added to it, and `log` tells of it. -/
def sendRequest (w : World) (opcode responseOpcode : UInt8) (itt flags : UInt32)
    (prepare : Pdu → Pdu) (data : List UInt8) (log : World → Addr → Res World) :
    Res (Int × World) := do
  match iscsiAllocatePdu w opcode responseOpcode itt flags with
  | (none, w) => .ok (-1, w)
  | (some a, w) => do
    let pdu ← w.deref a
    let w := w.setPdu a (prepare (pdu.setCmdsn w.iscsi.cmdsn))
    let (ret, w) ← addData w a data
    if ret ≠ 0 then dropRequest w a else queueRequest service log w a

/-- `iscsi_nop_out_async`: not for immediate delivery, so that it uses up a CmdSN once its data is
added. -/
def iscsiNopOutAsync (w : World) (cb : Option Callback) (data : List UInt8) (privateData : Nat) :
    Res (Int × World) :=
  if ¬w.olds.isEmpty ∨ w.iscsi.pendingReconnect then .ok (0, w)
  else if ¬w.iscsi.isLoggedin then .ok (-1, w)
  else do
    let (itt, w) := iscsiIttPostIncrement w
    match iscsiAllocatePdu w iscsiPduNopOut iscsiPduNopIn itt iscsiPduDropOnReconnect with
    | (none, w) => .ok (-1, w)
    | (some a, w) => do
      let pdu ← w.deref a
      let pdu := { pdu with callback := cb, privateData }
      let pdu := ((pdu.setPduflags 0x80).setTtt 0xffffffff).setLun 0
      let w := w.setPdu a (pdu.setCmdsn w.iscsi.cmdsn)
      let (ret, w) ← addData w a data
      if ret ≠ 0 then dropRequest w a
      else do
        let w ← iscsiQueuePdu service (w.modify fun c => c.setCmdsn (c.cmdsn + 1)) a
        let w ← logNopOut (w.modify fun c => { c with nopsInFlight := c.nopsInFlight + 1 }) a
        .ok (0, w)

/-- `iscsi_send_target_nop_out`. -/
def iscsiSendTargetNopOut (w : World) (ttt lun : UInt32) : Res (Int × World) :=
  sendRequest service w iscsiPduNopOut iscsiPduNoPdu 0xffffffff
    (iscsiPduDropOnReconnect ||| iscsiPduDeleteWhenSent)
    (fun pdu => ((pdu.setImmediate.setPduflags 0x80).setTtt ttt).setLun lun) [] logNopOut

/-- `iscsi_task_mgmt_async`. -/
def iscsiTaskMgmtAsync (w : World) (lun : UInt32) (function : TaskMgmtFunc) (ritt rcmdsn : UInt32)
    (cb : Option Callback) (privateData : Nat) : Res (Int × World) :=
  if ¬w.iscsi.isLoggedin then .ok (-1, w)
  else
    let (itt, w) := iscsiIttPostIncrement w
    sendRequest service w iscsiPduScsiTaskManagementRequest iscsiPduScsiTaskManagementResponse itt
      iscsiPduDropOnReconnect
      (fun pdu =>
        { (((pdu.setImmediate.setPduflags (0x80 ||| function.code)).setLun lun).setRitt
            ritt).setRcmdsn rcmdsn with callback := cb, privateData }) []
      logNothing

/-- `SendTargets=All` and its NUL. -/
def sendTargets : List UInt8 := "SendTargets=All".toUTF8.toList ++ [0]

/-- `iscsi_discovery_async`. -/
def iscsiDiscoveryAsync (w : World) (cb : Option Callback) (privateData : Nat) :
    Res (Int × World) :=
  let (itt, w) := iscsiIttPostIncrement w
  sendRequest service w iscsiPduTextRequest iscsiPduTextResponse itt iscsiPduDropOnReconnect
    (fun pdu =>
      { (pdu.setImmediate.setPduflags iscsiPduTextFinal).setTtt 0xffffffff with
        callback := cb, privateData }) sendTargets logNothing

/-- `iscsi_logout_async`. -/
def iscsiLogoutAsync (w : World) (cb : Option Callback) (privateData : Nat) :
    Res (Int × World) :=
  let w := w.modify fun c => { c with loginAttempts := 0 }
  if ¬w.iscsi.isLoggedin then .ok (-1, w)
  else
    let (itt, w) := iscsiIttPostIncrement w
    sendRequest service w iscsiPduLogoutRequest iscsiPduLogoutResponse itt
      (iscsiPduDropOnReconnect ||| iscsiPduCorkWhenSent)
      (fun pdu => { pdu.setImmediate.setPduflags 0x80 with callback := cb, privateData }) []
      logNothing

end

end Libiscsi
