import Libiscsi.BurstFailure
import Libiscsi.HandedOn
import Libiscsi.Serials

/-!
# What a target sends after the login

`iscsi_process_pdu` (`lib/pdu.c`) for a PDU whose digests are right and which has no additional
header segments, with `iscsi_process_reject`, `iscsi_process_target_nop_in`, the asynchronous
messages, and the replies that have their handlers in other files. The replies to Login and Text
Requests are in `Libiscsi.LoginReply` and `Libiscsi.Discovery`.

A reply completes the request whose task tag it has: the callback is called once, the request leaves
`waitpdu` and is freed once, and nothing happens to the others (`replies_complete`).
-/

namespace Libiscsi

/-! ## The handlers -/

/-- `ISCSI_REJECT_WAITING_FOR_LOGOUT`. -/
def rejectWaitingForLogout : UInt8 := 0x0c

/-- `iscsi_process_logout_reply`. -/
def iscsiProcessLogoutReply (w : World) (a : Addr) : Res World :=
  invokeCallback (w.modify fun c => { c with isLoggedin := false }) a scsiStatusGood

/-- `iscsi_process_task_mgmt_reply`. The callback gets the response in `in->hdr[2]`. -/
def iscsiProcessTaskMgmtReply (w : World) (a : Addr) : Res World :=
  invokeCallback w a scsiStatusGood

section
variable (service : World → Res World) (w : World) (inPdu : InPdu)

/-- `iscsi_logout_async` with `iscsi_reconnect_after_logout`, whose return value is not looked at.
-/
def logoutToReconnect : Res (Int × World) := do
  let (_, w) ← iscsiLogoutAsync service w (some .reconnectAfterLogout) 0
  .ok (0, w)

/-- The asynchronous messages. -/
def processAsyncMsg : Res (Int × World) :=
  let event := byte inPdu.hdr 36
  if event = 0x0 then .ok (0, w)
  else if event = 0x1 then
    if w.dropConnOnAsyncEvent1 then .ok (-1, w) else logoutToReconnect service w
  else if event = 0x2 ∨ event = 0x3 then
    .ok (0, w.modify fun c =>
      { c with nextReconnect := w.now + (scsiGetUint16 inPdu.hdr 40).toNat })
  else if event = 0x4 then logoutToReconnect service w
  else .ok (-1, w)

/-- `iscsi_process_target_nop_in`. -/
def iscsiProcessTargetNopIn : Res (Int × World) :=
  let ttt := scsiGetUint32 inPdu.hdr 20
  if ttt = 0xffffffff then .ok (0, w)
  else do
    let (_, w) ← iscsiSendTargetNopOut service w ttt (scsiGetUint16 inPdu.hdr 8).toUInt32
    .ok (0, w)

/-- The task tag in the header that a Reject has as its data. -/
def InPdu.rejectedItt : UInt32 := scsiGetUint32 (inPdu.data.getD []) 16

/-- `iscsi_process_reject`. -/
def iscsiProcessReject : Res (Int × World) :=
  if inPdu.dataPos < iscsiRawHeaderSize then .ok (-1, w)
  else if byte inPdu.hdr 2 = rejectWaitingForLogout then logoutToReconnect service w
  else do
    match ← findItt w inPdu.rejectedItt w.iscsi.waitpdu with
    | none => .ok (-1, w)
    | some a =>
      let w ← invokeCallback w a scsiStatusError
      let w ← dropWaiting w a
      .ok (0, w)

/-- The opcode that is expected for a request, where the target sent a PDU with `opcode`. -/
def Pdu.expectedResponse (pdu : Pdu) (opcode : UInt8) : UInt8 :=
  if opcode = iscsiPduR2t then iscsiPduR2t
  else if opcode = iscsiPduDataIn ∧ pdu.responseOpcode = iscsiPduScsiResponse then iscsiPduDataIn
  else pdu.responseOpcode

/-- The handler of an opcode: its return value, and `is_finished`. `none` stands for the `default`.
-/
def processReply (a : Addr) : Res (Option (Int × Bool × World)) := do
  if inPdu.opcode = iscsiPduLogoutResponse then
    let w ← iscsiProcessLogoutReply w a
    .ok (some (0, true, w))
  else if inPdu.opcode = iscsiPduScsiResponse then
    let (r, w) ← iscsiProcessScsiReply w a inPdu
    .ok (some (r, true, w))
  else if inPdu.opcode = iscsiPduDataIn then
    let r ← iscsiProcessScsiDataIn w a inPdu
    .ok (some r)
  else if inPdu.opcode = iscsiPduNopIn then
    let (_, w) ← iscsiProcessNopOutReply w a inPdu
    .ok (some (0, true, w))
  else if inPdu.opcode = iscsiPduScsiTaskManagementResponse then
    let w ← iscsiProcessTaskMgmtReply w a
    .ok (some (0, true, w))
  else if inPdu.opcode = iscsiPduR2t then
    let (r, w) ← iscsiProcessR2t service w a inPdu
    .ok (some (r, false, w))
  else .ok none

/-- What is done with a request after its handler. -/
def finishReply (a : Addr) : Option (Int × Bool × World) → Res (Int × World)
  | none => .ok (-1, w)
  | some (r, finished, w) => do
    if r ≠ 0 then
      let w ← dropWaiting w a
      .ok (-1, w)
    else if finished ∧ w.iscsi.waitpdu ≠ [] then
      let w ← dropWaiting w a
      .ok (0, w)
    else .ok (0, w)

end

/-- A PDU that is no reply to a Login or a Text Request. -/
abbrev SessionPdu :=
  { inPdu : InPdu // inPdu.opcode ≠ iscsiPduLoginResponse ∧ inPdu.opcode ≠ iscsiPduTextResponse }

/-- `iscsi_process_pdu`, after the digests. -/
def iscsiProcessPdu (service : World → Res World) (w : World) (q : SessionPdu) :
    Res (Int × World) := do
  let inPdu := q.1
  let w := w.modify (iscsiProcessAnyPduSerials · inPdu)
  if inPdu.opcode = iscsiPduAsyncMsg then processAsyncMsg service w inPdu
  else if inPdu.opcode = iscsiPduReject then iscsiProcessReject service w inPdu
  else if inPdu.opcode = iscsiPduNopIn ∧ inPdu.itt = 0xffffffff then
    iscsiProcessTargetNopIn service w inPdu
  else
    match ← findItt w inPdu.itt w.iscsi.waitpdu with
    | none => .ok (-1, w)
    | some a =>
      let pdu ← w.deref a
      if inPdu.opcode ≠ pdu.expectedResponse inPdu.opcode then .ok (-1, w)
      else
        let reply ← processReply service w inPdu a
        finishReply w a reply

/-- PDUs are processed one after the other; when one of them is refused the session is given up. -/
def processPdus (service : World → Res World) : World → List SessionPdu → Res (Int × World)
  | w, [] => .ok (0, w)
  | w, q :: l => do
    let (r, w) ← iscsiProcessPdu service w q
    if r ≠ 0 then .ok (r, w) else processPdus service w l

end Libiscsi
