import Libiscsi.BurstFailure
import Libiscsi.OutqueueOrder

/-!
# Submissions and the calls of `service` nested in them

`iscsi_add_to_outqueue` calls `drv->service`, which may send, fail, time out, reconnect and run the
application. `nested` stands for all of that: it may do anything that keeps the heap of PDUs
consistent (`Nests`). What a submission does is split into what it does before the PDU is queued,
the queueing, and what follows; `UsedAfter` are the states in which a nested call is made after
which the submission uses a PDU.
-/

namespace Libiscsi

/-! ## The heap of PDUs and the nested calls -/

/-- The callback of a PDU was called. -/
def World.Completed (w : World) (a : Addr) : Prop :=
  ∃ cb status privateData, Event.callback a cb status privateData ∈ w.trace

/-- The heap is consistent: the queue has live PDUs, they are at addresses that were handed out,
and a PDU whose callback was called has been freed. -/
structure World.Consistent (w : World) : Prop where
  queued : ∀ a ∈ w.iscsi.outqueue, (w.pdus a).isSome
  below : ∀ a, (w.pdus a).isSome → a < w.brk
  completed : ∀ a, w.Completed a → a < w.brk ∧ w.pdus a = none

/-- What a nested call may do: anything that keeps the heap consistent. A PDU that was freed stays
freed. -/
structure Nests (nested : World → World) : Prop where
  consistent : ∀ w, w.Consistent → (nested w).Consistent
  brk : ∀ w, w.brk ≤ (nested w).brk
  freed : ∀ w a, a < w.brk → w.pdus a = none → (nested w).pdus a = none

/-- `drv->service`, with that outcome. -/
def nestedService (nested : World → World) (w : World) : Res World := .ok (nested w)

/-! ## The submissions up to the queueing of their PDU -/

/-- The calls that submit PDUs. -/
inductive Submission where
  | command (lun : UInt32) (t : TaskPtr) (cb : Option Callback) (d : Option ScsiIovec)
    (privateData : Nat)
  | unsolicitedDataOut (cmd : Addr)
  | dataOut (cmd : Addr) (ttt offset len : UInt32)
  | r2t (cmd : Addr) (inPdu : InPdu)
  | nopOut (cb : Option Callback) (data : List UInt8) (privateData : Nat)
  | targetNopOut (ttt lun : UInt32)

/-- A submission on a world. -/
def Submission.run (service : World → Res World) (w : World) : Submission → Res (Int × World)
  | .command lun t cb d privateData => iscsiScsiCommandAsync service w lun t cb d privateData
  | .unsolicitedDataOut cmd => iscsiSendUnsolicitedDataOut service w cmd
  | .dataOut cmd ttt offset len => iscsiSendDataOut service len.toNat w cmd ttt offset len
  | .r2t cmd inPdu => iscsiProcessR2t service w cmd inPdu
  | .nopOut cb data privateData => iscsiNopOutAsync service w cb data privateData
  | .targetNopOut ttt lun => iscsiSendTargetNopOut service w ttt lun

/-- A submission that is over with a status, or has a PDU to queue. -/
abbrev Started := Res ((Int ⊕ Addr) × World)

/-- A submission goes on with the PDU it has to queue. -/
def Started.thenQueue (x : Started) (k : World → Addr → Res (Int × World)) : Res (Int × World) := do
  let (started, w) ← x
  match started with
  | .inl ret => .ok (ret, w)
  | .inr a => k w a

/-- `iscsi_scsi_command_async` from the allocation of the PDU up to its queueing. -/
def startQueueCommand (w : World) (lun : UInt32) (t : TaskPtr) (cb : Option Callback)
    (privateData : Nat) : Started := do
  let (itt, w) := iscsiIttPostIncrement w
  match iscsiAllocatePdu w iscsiPduScsiRequest iscsiPduScsiResponse itt 0 with
  | (none, w) => .ok (.inl (-1), w)
  | (some a, w) => do
    let w ← prepareCommand w a lun t cb privateData
    .ok (.inr a, w)

/-- `iscsi_scsi_command_async` up to the queueing of the command. -/
def startCommand (w : World) (lun : UInt32) (t : TaskPtr) (cb : Option Callback)
    (d : Option ScsiIovec) (privateData : Nat) : Started :=
  if w.iscsi.sessionType ≠ .normal then .ok (.inl (-1), w)
  else if ¬w.iscsi.isLoggedin ∧ ¬w.iscsi.pendingReconnect then .ok (.inl (-1), w)
  else
    match d with
    | some iov =>
      let (ok, w) := w.malloc
      if !ok then .ok (.inl (-1), w)
      else
        let w := w.modifyTask t fun task => scsiTaskSetIovOut task [iov]
        startQueueCommand w lun t cb privateData
    | none => startQueueCommand w lun t cb privateData

/-- The data of a request is added, or the request is dropped. -/
def startWithData (w : World) (a : Addr) (data : List UInt8) : Started := do
  let (ret, w) ← addData w a data
  if ret ≠ 0 then do
    let (ret, w) ← dropRequest w a
    .ok (.inl ret, w)
  else .ok (.inr a, w)

/-- `iscsi_nop_out_async` up to the queueing of the NOP-OUT, but for the CmdSN it uses up. -/
def startNopOut (w : World) (cb : Option Callback) (data : List UInt8) (privateData : Nat) :
    Started :=
  if ¬w.olds.isEmpty ∨ w.iscsi.pendingReconnect then .ok (.inl 0, w)
  else if ¬w.iscsi.isLoggedin then .ok (.inl (-1), w)
  else do
    let (itt, w) := iscsiIttPostIncrement w
    match iscsiAllocatePdu w iscsiPduNopOut iscsiPduNopIn itt iscsiPduDropOnReconnect with
    | (none, w) => .ok (.inl (-1), w)
    | (some a, w) => do
      let pdu ← w.deref a
      let pdu := { pdu with callback := cb, privateData }
      let pdu := ((pdu.setPduflags 0x80).setTtt 0xffffffff).setLun 0
      startWithData (w.setPdu a (pdu.setCmdsn w.iscsi.cmdsn)) a data

/-- `iscsi_send_target_nop_out` up to the queueing of the NOP-OUT. -/
def startTargetNopOut (w : World) (ttt lun : UInt32) : Started := do
  match iscsiAllocatePdu w iscsiPduNopOut iscsiPduNoPdu 0xffffffff
      (iscsiPduDropOnReconnect ||| iscsiPduDeleteWhenSent) with
  | (none, w) => .ok (.inl (-1), w)
  | (some a, w) => do
    let pdu ← w.deref a
    let pdu := (((pdu.setCmdsn w.iscsi.cmdsn).setImmediate.setPduflags 0x80).setTtt ttt).setLun lun
    startWithData (w.setPdu a pdu) a []

/-- `iscsi_nop_out_async` from the queueing on. -/
def finishNopOut (service : World → Res World) (w : World) (a : Addr) : Res (Int × World) := do
  let w ← iscsiQueuePdu service (w.modify fun c => c.setCmdsn (c.cmdsn + 1)) a
  let w ← logNopOut (w.modify fun c => { c with nopsInFlight := c.nopsInFlight + 1 }) a
  .ok (0, w)

section
variable (service : World → Res World) (w : World)

theorem commandHere_eq (lun : UInt32) (t : TaskPtr) (cb : Option Callback) (d : Option ScsiIovec)
    (privateData : Nat) : commandHere service w lun t cb d privateData =
      (startCommand w lun t cb d privateData).thenQueue fun w a => submitCommand service w a t := by
  have hqueue : ∀ w : World, queueCommand service w lun t cb privateData =
      (startQueueCommand w lun t cb privateData).thenQueue fun w a =>
        submitCommand service w a t := by
    intro w
    unfold queueCommand startQueueCommand
    simp only
    rcases iscsiAllocatePdu (iscsiIttPostIncrement w).2 iscsiPduScsiRequest iscsiPduScsiResponse
      (iscsiIttPostIncrement w).1 0 with ⟨_ | a, w'⟩
    · rfl
    · simp only
      cases prepareCommand w' a lun t cb privateData <;> rfl
  unfold commandHere startCommand
  split
  · rfl
  split
  · rfl
  cases d with
  | none => exact hqueue w
  | some iov =>
    simp only
    split
    · rfl
    · exact hqueue _

/-- A request whose data is added goes on, or is dropped. -/
theorem startWithData_thenQueue (a : Addr) (data : List UInt8)
    (k : World → Addr → Res (Int × World)) :
    (do let (ret, w) ← addData w a data
        if ret ≠ 0 then dropRequest w a else k w a) =
      (startWithData w a data).thenQueue k := by
  unfold startWithData
  cases addData w a data with
  | error e => rfl
  | ok x =>
    obtain ⟨ret, w'⟩ := x
    simp only [Outcome.ok_bind]
    split
    · cases dropRequest w' a <;> rfl
    · rfl

theorem iscsiNopOutAsync_eq (cb : Option Callback) (data : List UInt8) (privateData : Nat) :
    iscsiNopOutAsync service w cb data privateData =
      (startNopOut w cb data privateData).thenQueue (finishNopOut service) := by
  unfold iscsiNopOutAsync startNopOut
  split
  · rfl
  split
  · rfl
  simp only
  rcases iscsiAllocatePdu (iscsiIttPostIncrement w).2 iscsiPduNopOut iscsiPduNopIn
    (iscsiIttPostIncrement w).1 iscsiPduDropOnReconnect with ⟨_ | a, w'⟩
  · rfl
  · simp only
    cases w'.deref a with
    | error e => rfl
    | ok pdu => exact startWithData_thenQueue _ a data (finishNopOut service)

theorem iscsiSendTargetNopOut_eq (ttt lun : UInt32) :
    iscsiSendTargetNopOut service w ttt lun =
      (startTargetNopOut w ttt lun).thenQueue (queueRequest service logNopOut) := by
  unfold iscsiSendTargetNopOut sendRequest startTargetNopOut
  rcases iscsiAllocatePdu w iscsiPduNopOut iscsiPduNoPdu 0xffffffff
    (iscsiPduDropOnReconnect ||| iscsiPduDeleteWhenSent) with ⟨_ | a, w'⟩
  · rfl
  · simp only
    cases w'.deref a with
    | error e => rfl
    | ok pdu => exact startWithData_thenQueue _ a [] (queueRequest service logNopOut)

end

/-! ## The PDUs that are used after a nested call -/

/-- The world in which `iscsi_scsi_command_async` works: that of the context put aside while a
reconnect is in progress. -/
def World.target (w : World) : World :=
  match w.olds with
  | [] => w
  | old :: olds => { w with iscsi := old, olds }

section
variable (nested : World → World)

/-- The bursts of DATA-OUTs of a submission: the command, the target transfer tag, and the state,
the offset and the length with which `iscsi_send_data_out` is called. -/
inductive Bursts : Submission → World → Addr → UInt32 → World → UInt32 → UInt32 → Prop
  | command {w w₀ w₁ : World} {lun : UInt32} {t : TaskPtr} {cb : Option Callback}
    {d : Option ScsiIovec} {privateData : Nat} {a : Addr} {pdu : Pdu}
    (hstart : startCommand w.target lun t cb d privateData = .ok (.inr a, w₀))
    (hmore : unsolicitedFollows w₀.iscsi (w₀.tasks t) = true)
    (hqueue : iscsiQueuePdu (nestedService nested) w₀ a = .ok w₁) (hpdu : w₁.pdus a = some pdu) :
    Bursts (.command lun t cb d privateData) w a 0xffffffff w₁ (UInt32.ofNat pdu.payloadLen)
      (min pdu.expxferlen w₁.iscsi.firstBurstLength - UInt32.ofNat pdu.payloadLen)
  | unsolicited {w : World} {cmd : Addr} {pdu : Pdu} (hpdu : w.pdus cmd = some pdu) :
    Bursts (.unsolicitedDataOut cmd) w cmd 0xffffffff w (UInt32.ofNat pdu.payloadLen)
      (min pdu.expxferlen w.iscsi.firstBurstLength - UInt32.ofNat pdu.payloadLen)
  | dataOut (w : World) (cmd : Addr) (ttt offset len : UInt32) :
    Bursts (.dataOut cmd ttt offset len) w cmd ttt w offset len
  | r2t {w : World} {cmd : Addr} {pdu : Pdu} (inPdu : InPdu) (hpdu : w.pdus cmd = some pdu) :
    Bursts (.r2t cmd inPdu) w cmd (scsiGetUint32 inPdu.hdr 20)
      (w.setPdu cmd { pdu with datasn := 0 }) (scsiGetUint32 inPdu.hdr 40)
      (scsiGetUint32 inPdu.hdr 44)

/-- The loop of `iscsi_send_data_out` queues a DATA-OUT that is not the last one, and `service` is
called in `w'`. -/
def NotLast (turns : Nat) (cmd : Addr) (ttt : UInt32) (w : World) (offset len : UInt32)
    (w' : World) : Prop :=
  ∃ sent w₁ offset₁ len₁ seg,
    BurstTurns (nestedService nested) cmd ttt w offset len sent w₁ offset₁ len₁ ∧
    sent.length + 1 < turns ∧ seg = min len₁ w₁.iscsi.targetMaxRecvDataSegmentLength ∧
    seg < len₁ ∧ sendOneDataOut .ok w₁ cmd ttt offset₁ seg (len₁ == seg) = .ok (true, w') ∧
    w'.iscsi.outqueue.head? = some w₁.brk

/-- A submission calls `service` in `w'`, for a PDU that became the head of `outqueue`, and uses
the PDU `a` after that call: the command if a DATA-OUT of it is still to be sent, a NOP-OUT if the
message that it was sent is logged. -/
inductive UsedAfter : Submission → World → World → Addr → Prop
  | burst {sub : Submission} {w w₁ w' : World} {cmd : Addr} {ttt offset len : UInt32}
    (hburst : Bursts nested sub w cmd ttt w₁ offset len)
    (h : NotLast nested len.toNat cmd ttt w₁ offset len w') : UsedAfter sub w w' cmd
  | command {w w₀ w' : World} {lun : UInt32} {t : TaskPtr} {cb : Option Callback}
    {d : Option ScsiIovec} {privateData : Nat} {a : Addr}
    (hstart : startCommand w.target lun t cb d privateData = .ok (.inr a, w₀))
    (hmore : unsolicitedFollows w₀.iscsi (w₀.tasks t) = true)
    (hqueue : iscsiQueuePdu .ok w₀ a = .ok w') (hhead : w'.iscsi.outqueue.head? = some a) :
    UsedAfter (.command lun t cb d privateData) w w' a
  | nopOut {w w₀ w' : World} {cb : Option Callback} {data : List UInt8} {privateData : Nat}
    {a : Addr} (hstart : startNopOut w cb data privateData = .ok (.inr a, w₀))
    (hqueue : iscsiQueuePdu .ok (w₀.modify fun c => c.setCmdsn (c.cmdsn + 1)) a = .ok w')
    (hhead : w'.iscsi.outqueue.head? = some a)
    (hlogs : Context.logsNopOut { (nested w').iscsi with
      nopsInFlight := (nested w').iscsi.nopsInFlight + 1 }) :
    UsedAfter (.nopOut cb data privateData) w w' a
  | targetNopOut {w w₀ w' : World} {ttt lun : UInt32} {a : Addr}
    (hstart : startTargetNopOut w ttt lun = .ok (.inr a, w₀))
    (hqueue : iscsiQueuePdu .ok w₀ a = .ok w') (hhead : w'.iscsi.outqueue.head? = some a)
    (hlogs : (nested w').iscsi.logsNopOut) : UsedAfter (.targetNopOut ttt lun) w w' a

/-- A submission uses no PDU that was freed, and queues a DATA-OUT only while its command has not
been completed. -/
structure Submission.Safe (sub : Submission) (w : World) : Prop where
  noUse : sub.run (nestedService nested) w ≠ .error .useAfterFree
  noDataOut : ∀ cmd ttt w₀ offset len sent w₁ offset₁ len₁ w₂,
    Bursts nested sub w cmd ttt w₀ offset len →
    BurstTurns (nestedService nested) cmd ttt w₀ offset len sent w₁ offset₁ len₁ →
    sendOneDataOut (nestedService nested) w₁ cmd ttt offset₁
      (min len₁ w₁.iscsi.targetMaxRecvDataSegmentLength)
      (len₁ == min len₁ w₁.iscsi.targetMaxRecvDataSegmentLength) = .ok (true, w₂) →
    ¬w₁.Completed cmd

/-- What the callers of a submission see to: the heap is consistent, and the command whose DATA-OUTs
are to be sent is live. -/
def Submission.Ready (sub : Submission) (w : World) : Prop :=
  match sub with
  | .command .. => w.target.Consistent
  | .unsolicitedDataOut cmd | .dataOut cmd _ _ _ | .r2t cmd _ =>
    w.Consistent ∧ (w.pdus cmd).isSome
  | .nopOut .. | .targetNopOut .. => w.Consistent

end

end Libiscsi
