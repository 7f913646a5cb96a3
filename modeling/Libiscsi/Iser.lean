import Libiscsi.Queue

/-!
# Queueing PDUs on the iSER transport

`iscsi_iser_send_pdu`, `iscsi_iser_revive_queued_pdus` and `iscsi_iser_queue_pdu` (`lib/iser.c`).
A PDU whose CmdSN is in the window is handed to the adapter at once, and is in `waitpdu` from then
on; the others are queued by `iscsi_add_to_outqueue`, which the transport has in common with TCP,
and are revived when MaxCmdSN moves. The call of `service` for `POLLOUT` by that function does
nothing here: `iscsi_iser_service` refuses any event but `POLLIN`.

What the buffers are and what the adapter does is the environment's; no reconnect is pending.
-/

namespace Libiscsi

/-- What becomes of a PDU that is sent. -/
inductive IserSend where
  /-- `ibv_post_send` took the PDU. -/
  | posted
  /-- `iser_initialize_headers` could not allocate the buffers. -/
  | noBuffer
  /-- `iser_prepare_read_cmd` or `iser_prepare_write_cmd` failed. -/
  | notPrepared
  /-- `ibv_post_send` failed. -/
  | notPosted
  deriving DecidableEq, Repr

/-- A PDU that was taken by the adapter, as it was then, with MaxCmdSN as it was. -/
structure IserPost where
  addr : Addr
  pdu : Pdu
  maxcmdsn : UInt32
  deriving DecidableEq, Repr

/-- The context with what is particular to the transport. -/
structure Iser where
  world : World := {}
  /-- `iscsi->opaque` is not NULL. -/
  connected : Bool := true
  /-- What becomes of the next PDUs that are sent; those after the last are posted. -/
  sends : List IserSend := []
  /-- The PDUs that were posted. -/
  posts : List IserPost := []
  /-- The PDUs that could not be sent. -/
  failed : List Addr := []
  /-- The PDUs that were handed to `iscsi_iser_queue_pdu`. -/
  queued : List Addr := []

namespace Iser

/-- The context is changed. -/
def modify (s : Iser) (f : Context → Context) : Iser := { s with world := s.world.modify f }

/-- `iscsi_iser_send_pdu`. -/
def sendPdu (s : Iser) (a : Addr) : Res (Int × Iser) := do
  let pdu ← s.world.deref a
  let pdu := pdu.setExpstatsn (s.world.iscsi.statsn + 1)
  let w := (s.world.setPdu a pdu).modify fun c => c.setWaitpdu (c.waitpdu ++ [a])
  let s := { s with world := w }
  if !s.connected then .ok (0, s)
  else
    let outcome := s.sends.headD .posted
    let s := { s with sends := s.sends.tail }
    if outcome = .posted then
      .ok (0, { s with
        posts := s.posts ++ [{ addr := a, pdu, maxcmdsn := s.world.iscsi.maxcmdsn }] })
    else .ok (-1, { s with failed := s.failed ++ [a] })

/-- `iscsi_iser_revive_queued_pdus`. The number bounds the turns: each takes the head off
`outqueue` or ends the loop. -/
def reviveLoop : Nat → Iser → Res (Int × Iser)
  | fuel, s =>
    match s.world.iscsi.outqueue with
    | [] => .ok (0, s)
    | a :: _ => do
      let head ← s.world.deref a
      if iscsiSerial32Compare head.cmdsn s.world.iscsi.maxcmdsn > 0 then .ok (0, s)
      else
        match fuel with
        | 0 => .error .diverges
        | fuel + 1 => do
          let outqueue ← listRemove s.world.iscsi.outqueue a
          let (r, s) ← (s.modify (·.setOutqueue outqueue)).sendPdu a
          if r < 0 then .ok (-1, s.modify fun c => c.setOutqueue (a :: c.outqueue))
          else reviveLoop fuel s

/-- `iscsi_iser_revive_queued_pdus`. -/
def reviveQueuedPdus (s : Iser) : Res (Int × Iser) :=
  reviveLoop s.world.iscsi.outqueue.length s

/-- `iscsi_iser_queue_pdu`. `cmEvent` is what `iscsi_iser_cm_event` returns, which is called for a
NOP-Out; if it fails the PDU is dropped for a reconnect. -/
def queuePdu (s : Iser) (a : Addr) (cmEvent : Int) : Res Iser := do
  let s := { s with queued := s.queued ++ [a] }
  let pdu ← s.world.deref a
  if byte pdu.outdata 0 = iscsiPduNopOut ∧ cmEvent ≠ 0 then .ok s
  else if s.world.iscsi.outqueue ≠ [] ∨
      iscsiSerial32Compare pdu.cmdsn s.world.iscsi.maxcmdsn > 0 ∧ ¬pdu.immediate then do
    let w ← iscsiAddToOutqueue .ok s.world a
    .ok { s with world := w }
  else do
    let (_, s) ← s.sendPdu a
    .ok s

/-- A reply to the PDU arrived and was processed: the PDU leaves `waitpdu` and is completed. -/
def completeReply (s : Iser) (a : Addr) (status : Status) : Res Iser := do
  let waitpdu ← listRemove s.world.iscsi.waitpdu a
  let w ← invokeCallback (s.world.modify (·.setWaitpdu waitpdu)) a status
  let w ← iscsiFreePdu w a
  .ok { s with world := w }

/-- MaxCmdSN moves on with a reply. -/
def moveMaxcmdsn (s : Iser) (maxcmdsn : UInt32) : Iser :=
  if iscsiSerial32Compare maxcmdsn s.world.iscsi.maxcmdsn > 0 then
    s.modify fun c => { c with maxcmdsn }
  else s

end Iser

end Libiscsi
