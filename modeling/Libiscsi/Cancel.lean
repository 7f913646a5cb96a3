import Libiscsi.Pdu

/-!
# Timeouts and cancellation

`iscsi_timeout_scan`, `iscsi_cancel_pdus` and `iscsi_cancel_lun_pdus` (`lib/pdu.c`),
`iscsi_scsi_cancel_task` and `iscsi_scsi_cancel_all_tasks` (`lib/iscsi-command.c`).

The scans walk a queue, move the PDUs they select to a private list `tmp` and renumber the PDUs
that follow a command they removed; a second loop completes the PDUs of `tmp`. That second loop is
`for (pdu = tmp; pdu; pdu = next_pdu)` and its body does not assign `next_pdu`, which the loop
before it has left NULL (`completeTmp`).
-/

namespace Libiscsi

namespace Pdu

/-- `scsi_timeout` is set, and not later than `t`. -/
def expired (t : Nat) (p : Pdu) : Bool := p.scsiTimeout != 0 && decide (p.scsiTimeout ≤ t)

/-- The PDU uses up a CmdSN: it is neither for immediate delivery nor a DATA-OUT. -/
def isCommand (p : Pdu) : Bool := !p.immediate && p.opcode != iscsiPduDataOut

/-- The opcode of the CDB is one of the three the source takes for a data-out command. -/
def isWriteCdb (p : Pdu) : Bool :=
  byte p.outdata 32 == scsiOpcodeWrite10 || byte p.outdata 32 == scsiOpcodeWrite12 ||
    byte p.outdata 32 == scsiOpcodeWrite16

end Pdu

/-! ## The scans of `outqueue` -/

/-- `if (cmdsn_gap > 0) iscsi_pdu_set_cmdsn(pdu, pdu->cmdsn - cmdsn_gap)`. -/
def closeGap (w : World) (a : Addr) (gap : UInt32) : Res World := do
  if gap > 0 then
    let pdu ← w.deref a
    iscsiPduSetCmdsn w a (pdu.cmdsn - gap)
  else .ok w

/-- The loop over `outqueue` of `iscsi_timeout_scan` and `iscsi_cancel_lun_pdus`: the PDUs that
`sel` selects are moved to `tmp`. The list is what is left of the queue at the time the loop
started; the result is `tmp`. -/
def unlinkOutqueue (sel : World → Pdu → Bool) :
    List Addr → UInt32 → List Addr → World → Res (List Addr × World)
  | [], _, tmp, w => .ok (tmp, w)
  | a :: rest, gap, tmp, w => do
    let w ← closeGap w a gap
    let pdu ← w.deref a
    if sel w pdu then
      let command := pdu.isCommand
      let outqueue ← listRemove w.iscsi.outqueue a
      let w := w.modify fun c =>
        (c.setOutqueue outqueue).setCmdsn (if command then c.cmdsn - 1 else c.cmdsn)
      unlinkOutqueue sel rest (if command then gap + 1 else gap) (tmp ++ [a]) w
    else unlinkOutqueue sel rest gap tmp w

/-- The callback of a PDU is called and the PDU is freed. -/
def completePdu (w : World) (a : Addr) (status : Status) : Res World := do
  let w ← invokeCallback w a status
  iscsiFreePdu w a

/-- The loop `for (pdu = tmp; pdu; pdu = next_pdu)` that follows a scan. With `next_pdu` NULL, as
the scan left it, the body is executed for the first PDU of `tmp` only. -/
def completeTmp (w : World) (tmp : List Addr) (status : Status) : Res World :=
  match tmp with
  | [] => .ok w
  | a :: _ => completePdu w a status

/-! ## Timeouts -/

/-- `iscsi_pdu_data_out_inprocess`. It takes `iscsi_lock`, which the scan that calls it holds. -/
def iscsiPduDataOutInprocess (w : World) (pdu : Pdu) : Res Bool :=
  if pdu.opcode ≠ iscsiPduScsiRequest then .ok false
  else if !pdu.isWriteCdb then .ok false
  else if w.havePthread then .error .deadlock
  else do
    let sameTask := fun a => do
      let p ← w.deref a
      .ok (decide (p.scsiCbdata.task = pdu.scsiCbdata.task))
    (w.iscsi.outqueueCurrent.toList ++ w.iscsi.outqueue).anyM sameTask

/-- The loop over `waitpdu` of `iscsi_timeout_scan`. -/
def timeoutWaitpdu (t : Nat) : List Addr → List Addr → World → Res (List Addr × World)
  | [], tmp, w => .ok (tmp, w)
  | a :: rest, tmp, w => do
    let pdu ← w.deref a
    if pdu.expired t then
      if ← iscsiPduDataOutInprocess w pdu then timeoutWaitpdu t rest tmp w
      else
        let waitpdu ← listRemove w.iscsi.waitpdu a
        timeoutWaitpdu t rest (tmp ++ [a]) (w.modify (·.setWaitpdu waitpdu))
    else timeoutWaitpdu t rest tmp w

/-- What `iscsi_timeout_scan` takes out of `outqueue`: no immediate PDU and no DATA-OUT. -/
def timedOut (t : Nat) (_ : World) (pdu : Pdu) : Bool := pdu.expired t && pdu.isCommand

/-- `iscsi_timeout_scan`. -/
def iscsiTimeoutScan (w : World) : Res World := do
  let t := w.now
  let (tmp, w) ← unlinkOutqueue (timedOut t) w.iscsi.outqueue 0 [] w
  let w ← completeTmp w tmp scsiStatusTimeout
  let (tmp, w) ← timeoutWaitpdu t w.iscsi.waitpdu [] w
  completeTmp w tmp scsiStatusTimeout

/-! ## Cancellation -/

/-- The loop over `outqueue` of `iscsi_cancel_pdus`. -/
def cancelOutqueue : List Addr → World → Res World
  | [], w => .ok w
  | a :: rest, w => do
    let w := w.modify (·.setOutqueue rest)
    let w ← invokeCallback w a scsiStatusCancelled
    let pdu ← w.deref a
    let w := if pdu.isCommand then w.modify fun c => c.setCmdsn (c.cmdsn - 1) else w
    let w ← iscsiFreePdu w a
    cancelOutqueue rest w

/-- The loop over the former `waitpdu` of `iscsi_cancel_pdus`. -/
def cancelWaitpdu : List Addr → World → Res World
  | [], w => .ok w
  | a :: rest, w => do
    let w ← completePdu w a scsiStatusCancelled
    cancelWaitpdu rest w

/-- `iscsi_cancel_pdus`. -/
def iscsiCancelPdus (w : World) : Res World := do
  let w ← cancelOutqueue w.iscsi.outqueue w
  let tmp := w.iscsi.waitpdu
  cancelWaitpdu tmp (w.modify (·.setWaitpdu []))

/-- `pdu->scsi_cbdata.task` is a task of the LUN. -/
def taskOfLun (lun : UInt32) (w : World) (pdu : Pdu) : Bool :=
  match pdu.scsiCbdata.task with
  | none => false
  | some t => (w.tasks t).lun == lun

/-- `iscsi_cancel_lun_pdus`. -/
def iscsiCancelLunPdus (w : World) (lun : UInt32) : Res World := do
  let (tmp, w) ← unlinkOutqueue (taskOfLun lun) w.iscsi.outqueue 0 [] w
  completeTmp w tmp scsiStatusCancelled

/-- The first PDU of a list with the task tag. -/
def findItt (w : World) (itt : UInt32) : List Addr → Res (Option Addr)
  | [] => .ok none
  | a :: rest => do
    let pdu ← w.deref a
    if pdu.itt = itt then .ok (some a) else findItt w itt rest

/-- The loop over `outqueue` of `iscsi_scsi_cancel_task`. Its `cmdsn_gap` is incremented only in
the loop that follows it, so that it renumbers nothing. -/
def unlinkItt (itt : UInt32) : List Addr → List Addr → World → Res (List Addr × World)
  | [], tmp, w => .ok (tmp, w)
  | a :: rest, tmp, w => do
    let pdu ← w.deref a
    if pdu.itt = itt then
      let outqueue ← listRemove w.iscsi.outqueue a
      unlinkItt itt rest (tmp ++ [a]) (w.modify (·.setOutqueue outqueue))
    else unlinkItt itt rest tmp w

/-- The loop over `tmp` of `iscsi_scsi_cancel_task`, executed for the first PDU only as in
`completeTmp`; a command gives its CmdSN back. The result is `ret`. -/
def cancelTmp (w : World) (tmp : List Addr) : Res (Int × World) :=
  match tmp with
  | [] => .ok (-1, w)
  | a :: _ => do
    let w ← invokeCallback w a scsiStatusCancelled
    let pdu ← w.deref a
    let w := if pdu.isCommand then w.modify fun c => c.setCmdsn (c.cmdsn - 1) else w
    let w ← iscsiFreePdu w a
    .ok (0, w)

/-- `iscsi_scsi_cancel_task` without its last step, the search in `old_iscsi`. The flag says that
the function has returned. -/
def cancelTaskHere (w : World) (task : TaskPtr) : Res (Bool × Int × World) := do
  let itt := (w.tasks task).itt
  match ← findItt w itt w.iscsi.waitpdu with
  | some a =>
    let waitpdu ← listRemove w.iscsi.waitpdu a
    let w ← completePdu (w.modify (·.setWaitpdu waitpdu)) a scsiStatusCancelled
    .ok (true, 0, w)
  | none =>
    let (tmp, w) ← unlinkItt itt w.iscsi.outqueue [] w
    let (ret, w) ← cancelTmp w tmp
    .ok (false, ret, w)

/-- `iscsi_scsi_cancel_task` along the chain of `old_iscsi` pointers, given as a list. -/
def cancelTaskFrom : List Context → World → TaskPtr → Res (Int × World)
  | [], w, task => do
    let (_, ret, w) ← cancelTaskHere w task
    .ok (ret, w)
  | _ :: rest, w, task => do
    let (done, ret, w) ← cancelTaskHere w task
    if done then .ok (ret, w)
    else
      match w.olds with
      | [] => .ok (ret, w)
      | old :: olds => do
        let (ret, w') ← cancelTaskFrom rest { w with iscsi := old, olds } task
        .ok (ret, { w' with iscsi := w.iscsi, olds := w'.iscsi :: w'.olds })

/-- `iscsi_scsi_cancel_task`. -/
def iscsiScsiCancelTask (w : World) (task : TaskPtr) : Res (Int × World) :=
  cancelTaskFrom w.olds w task

/-- `iscsi_scsi_cancel_all_tasks`. -/
def iscsiScsiCancelAllTasks (w : World) : Res World := do
  let w ← iscsiCancelPdus w
  if w.olds.isEmpty then .ok w else w.onOld iscsiCancelPdus

end Libiscsi
