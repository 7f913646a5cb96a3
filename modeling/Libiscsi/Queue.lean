import Libiscsi.Pdu

/-!
# The queue of PDUs to send

`iscsi_add_to_outqueue` (`lib/socket.c`) inserts a PDU into `outqueue` by CmdSN, immediate PDUs
before all others, and when the PDU becomes the head of the queue calls the transport's `service`
for `POLLOUT`. That call goes through a function pointer (`drv->service`), which is a parameter
here.
-/

namespace Libiscsi

/-- The first loop for an immediate PDU: the CmdSN of the first PDU of the queue that is not a
DATA-OUT. -/
def firstCmdsn (w : World) : List Addr → Res (Option UInt32)
  | [] => .ok none
  | a :: rest => do
    let current ← w.deref a
    if current.opcode ≠ iscsiPduDataOut then .ok (some current.cmdsn) else firstCmdsn w rest

/-- The loop that inserts a PDU: before the first PDU with a greater CmdSN, an immediate one also
before the first PDU that is not immediate, else at the end. -/
def insertPdu (w : World) (a : Addr) (pdu : Pdu) : List Addr → Res (List Addr)
  | [] => .ok [a]
  | b :: rest => do
    let current ← w.deref b
    if iscsiSerial32Compare pdu.cmdsn current.cmdsn < 0 ∨ (pdu.immediate ∧ ¬current.immediate) then
      .ok (a :: b :: rest)
    else do
      let rest ← insertPdu w a pdu rest
      .ok (b :: rest)

/-- An immediate PDU gets the CmdSN the first loop finds. -/
def immediateCmdsn (w : World) (a : Addr) (pdu : Pdu) : Res World :=
  if pdu.immediate then do
    match ← firstCmdsn w w.iscsi.outqueue with
    | some cmdsn => iscsiPduSetCmdsn w a cmdsn
    | none => .ok w
  else .ok w

/-- The time after which a PDU that is queued now is given up. -/
def World.timeoutOf (w : World) : Nat :=
  if w.iscsi.scsiTimeout > 0 then w.now + w.iscsi.scsiTimeout.toNat else 0

/-- `iscsi_add_to_outqueue` up to the call of `service`. -/
def enqueue (w : World) (a : Addr) : Res World := do
  let pdu ← w.deref a
  let pdu := { pdu with scsiTimeout := w.timeoutOf }
  let w ← immediateCmdsn (w.setPdu a pdu) a pdu
  let pdu ← w.deref a
  let outqueue ← insertPdu w a pdu w.iscsi.outqueue
  .ok ((w.modify (·.setOutqueue outqueue)).log (.queued a pdu))

/-- `iscsi_add_to_outqueue`. -/
def iscsiAddToOutqueue (service : World → Res World) (w : World) (a : Addr) : Res World := do
  let w ← enqueue w a
  if w.iscsi.outqueue.head? = some a then service w else .ok w

/-- `iscsi_queue_pdu`, for the TCP transport. -/
def iscsiQueuePdu (service : World → Res World) (w : World) (a : Addr) : Res World :=
  iscsiAddToOutqueue service w a

end Libiscsi
