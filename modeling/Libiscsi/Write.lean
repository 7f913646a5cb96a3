import Libiscsi.Crc32c
import Libiscsi.Iovector
import Libiscsi.Pdu

/-!
# Writing to the socket

`iscsi_write_to_socket` (`lib/socket.c`). The function goes through stages for the PDU that is
being sent: header and immediate data, data digest of these, payload from the vectors of the task,
padding, data digest. Each stage may return from the function, which the stages here say by
`some` return value; with `none` the next stage follows.
-/

namespace Libiscsi

/-- The outcome of a system call that transfers bytes. -/
inductive SysResult where
  | count (n : Nat)
  | again
  | error
  deriving DecidableEq, Repr

/-- `send` or `writev` of the bytes, which belong to the PDU at `a`. -/
def sysSend (w : World) (a : Addr) (bytes : List UInt8) : SysResult × World :=
  match w.sends with
  | [] => (.again, w)
  | .again :: sends => (.again, { w with sends })
  | .error :: sends => (.error, { w with sends })
  | .accepted more :: sends =>
    let n := min (more + 1) bytes.length
    (.count n, ({ w with sends } : World).log (.sent a (bytes.take n)))

/-- The return value for a failed system call: 0 for `EAGAIN`, -1 for any other error. -/
def SysResult.ret : SysResult → Option Int
  | .count _ => none
  | .again => some 0
  | .error => some (-1)

/-- `iscsi_pdu_update_headerdigest`; `none` when the header has no room for a digest. -/
def iscsiPduUpdateHeaderdigest (p : Pdu) : Option Pdu :=
  if p.outdata.length < iscsiRawHeaderSize + iscsiDigestSize then none
  else
    let crc := crc32c (p.outdata.take iscsiRawHeaderSize)
    some { p with
      outdata := p.outdata.take iscsiRawHeaderSize ++ digestBytes crc ++
        p.outdata.drop (iscsiRawHeaderSize + iscsiDigestSize) }

/-- The header of a PDU that is taken acknowledges the statuses received so far. -/
def Pdu.stamped (c : Context) (pdu : Pdu) : Pdu :=
  pdu.setExpstatsn (if pdu.opcode ≠ iscsiPduDataOut then c.statsn + 1 else c.statsn)

/-- The header of a PDU that is taken gets its digest, if headers have digests. -/
def Pdu.digested (c : Context) (pdu : Pdu) : Option Pdu :=
  if c.headerDigest = .none then some pdu else iscsiPduUpdateHeaderdigest pdu

/-- The head of `outqueue` becomes `outqueue_current`, if the gates are open. -/
def takeHead (w : World) (a : Addr) : Res (Option Int × World) := do
  if w.iscsi.isCorked then .ok (some 0, w)
  else
    let pdu ← w.deref a
    if iscsiSerial32Compare pdu.cmdsn w.iscsi.maxcmdsn > 0 ∧ ¬pdu.immediate then .ok (some 0, w)
    else if iscsiSerial32Compare pdu.cmdsn w.iscsi.expcmdsn < 0 ∧ pdu.opcode ≠ iscsiPduDataOut then
      .ok (some (-1), w)
    else
      let w := w.modify (·.setOutqueueCurrent (some a))
      let pdu := pdu.stamped w.iscsi
      let w := w.setPdu a pdu
      match pdu.digested w.iscsi with
      | none => .ok (some (-1), w)
      | some pdu =>
        let outqueue ← listRemove w.iscsi.outqueue a
        let waitpdu := if pdu.hasFlag iscsiPduDeleteWhenSent then w.iscsi.waitpdu
          else w.iscsi.waitpdu ++ [a]
        let w := (w.setPdu a pdu).modify fun c => (c.setOutqueue outqueue).setWaitpdu waitpdu
        .ok (none, w.log (.taken a pdu))

/-- Header and immediate data are written. -/
def writeHeader (w : World) (a : Addr) : Res (Option Int × World) := do
  let pdu ← w.deref a
  let size := pad4 pdu.outdata.length
  -- outdata.size becomes the aligned size, and the padding part of what is written
  let pdu := { pdu with
    outdata := pdu.outdata ++ List.replicate (size - pdu.outdata.length) 0 }
  let w := w.setPdu a pdu
  if pdu.outdataWritten < size then
    match sysSend w a (pdu.outdata.drop pdu.outdataWritten) with
    | (.count n, w) =>
      let written := pdu.outdataWritten + n
      .ok (if written ≠ size then some 0 else none,
        w.setPdu a { pdu with outdataWritten := written })
    | (r, w) => .ok (r.ret, w)
  else .ok (if pdu.outdataWritten ≠ size then some 0 else none, w)

/-- `execute_data_digest`: the data digest is that of the immediate data in `outdata`. -/
def executeDataDigest (c : Context) (pdu : Pdu) : Bool :=
  c.dataDigest != .none && iscsiGetPduDataSize pdu.outdata != 0 && pdu.payloadLen == 0

/-- The data digest of the data in `outdata` is computed, once. -/
def digestOutdata (w : World) (a : Addr) : Res World := do
  let pdu ← w.deref a
  if executeDataDigest w.iscsi pdu ∧ ¬pdu.outdataDigestComputed then
    let ahslen := (byte pdu.outdata 4).toNat
    let headLen := iscsiHeaderSize w.iscsi.headerDigest
    .ok (w.setPdu a { pdu with
      calculatedDataDigest :=
        crc32cChain pdu.calculatedDataDigest (pdu.outdata.drop (headLen + ahslen * 4))
      outdataDigestComputed := true })
  else .ok w

/-- `iscsi_iovector_readv_writev` for what is left of the payload: the bytes that were passed to
`writev`, and its outcome. -/
def writevPayload (w : World) (a : Addr) (pdu : Pdu) (t : TaskPtr) :
    List UInt8 × SysResult × World :=
  let pos := (pdu.payloadOffset + pdu.payloadWritten) % 2 ^ 32
  let count := pdu.payloadLen - pdu.payloadWritten
  match iovectorSelect (w.tasks t).iovectorOut pos count with
  | (iovectorOut, none) => ([], .error, w.modifyTask t fun task => { task with iovectorOut })
  | (iovectorOut, some iov) =>
    let bytes := iovecBytes w.mem iov
    (bytes, sysSend (w.modifyTask t fun task => { task with iovectorOut }) a bytes)

/-- A stage, and what follows it unless it returned. -/
def andThen (x : Res (Option Int × World)) (f : World → Res (Option Int × World)) :
    Res (Option Int × World) := do
  match ← x with
  | (some r, w) => .ok (some r, w)
  | (none, w) => f w

/-- One turn of the loop over the payload. -/
def payloadTurn (w : World) (a : Addr) (pdu : Pdu) : Res (Option Int × World) :=
  match pdu.scsiCbdata.task with
  | none => .error .nullDeref
  | some t =>
    if (w.tasks t).iovectorOut.iov.isNone then .ok (some (-1), w)
    else
      match writevPayload w a pdu t with
      | (bytes, .count n, w) =>
        let calculatedDataDigest := if w.iscsi.dataDigest = .none then pdu.calculatedDataDigest
          else crc32cChain pdu.calculatedDataDigest (bytes.take n)
        .ok (none, w.setPdu a { pdu with
          payloadWritten := pdu.payloadWritten + n, calculatedDataDigest })
      | (_, r, w) => .ok (r.ret, w)

/-- The loop over the payload. The number bounds the turns: each writes at least one byte of what
is left. -/
def writePayload : Nat → World → Addr → Res (Option Int × World)
  | 0, _, _ => .error .diverges
  | fuel + 1, w, a => do
    let pdu ← w.deref a
    if pdu.payloadWritten < pdu.payloadLen then
      andThen (payloadTurn w a pdu) fun w => writePayload fuel w a
    else .ok (none, w)

/-- The padding after the payload is written. -/
def writePadding (w : World) (a : Addr) : Res (Option Int × World) := do
  let pdu ← w.deref a
  let total := pad4 pdu.payloadLen
  if pdu.payloadWritten < total then
    match sysSend w a (List.replicate (total - pdu.payloadWritten) 0) with
    | (.count n, w) =>
      let written := pdu.payloadWritten + n
      let calculatedDataDigest := if w.iscsi.dataDigest = .none then pdu.calculatedDataDigest
        else crc32cChain pdu.calculatedDataDigest (List.replicate n 0)
      .ok (if written < total then some 0 else none,
        w.setPdu a { pdu with payloadWritten := written, calculatedDataDigest })
    | (r, w) => .ok (r.ret, w)
  else .ok (none, w)

/-- The data digest is written, if there is one. `payload_written` counts its bytes as well. -/
def writeDigest (w : World) (a : Addr) : Res (Option Int × World) := do
  let pdu ← w.deref a
  let total := pad4 pdu.payloadLen
  if executeDataDigest w.iscsi pdu ∨ (w.iscsi.dataDigest ≠ .none ∧ pdu.payloadWritten ≠ 0) then
    let total := total + iscsiDigestSize
    if pdu.payloadWritten < total then
      let todo := total - pdu.payloadWritten
      let digest := digestBytes (crc32cChainDone pdu.calculatedDataDigest)
      match sysSend w a (digest.drop (iscsiDigestSize - todo)) with
      | (.count n, w) =>
        let written := pdu.payloadWritten + n
        .ok (if written ≠ total then some 0 else none,
          w.setPdu a { pdu with payloadWritten := written })
      | (r, w) => .ok (r.ret, w)
    else .ok (if pdu.payloadWritten ≠ total then some 0 else none, w)
  else .ok (if pdu.payloadWritten ≠ total then some 0 else none, w)

/-- A PDU that was written is freed, unless it waits for a response. -/
def releaseSent (w : World) (a : Addr) (pdu : Pdu) : Res World :=
  if pdu.hasFlag iscsiPduDeleteWhenSent then iscsiFreePdu w a else .ok w

/-- The PDU has been written. -/
def writeDone (w : World) (a : Addr) : Res World := do
  let pdu ← w.deref a
  let w := if pdu.hasFlag iscsiPduCorkWhenSent then
    w.modify fun c => { c with isCorked := true } else w
  let w ← releaseSent w a pdu
  .ok (w.modify (·.setOutqueueCurrent none))

/-- One turn of the loop for the PDU being sent. -/
def writeCurrent (w : World) (a : Addr) : Res (Option Int × World) :=
  andThen (writeHeader w a) fun w => do
    let w ← digestOutdata w a
    let pdu ← w.deref a
    andThen (writePayload (pdu.payloadLen - pdu.payloadWritten + 1) w a) fun w =>
      andThen (writePadding w a) fun w =>
        andThen (writeDigest w a) fun w => do
          let w ← writeDone w a
          .ok (none, w)

/-- One turn of the loop of `iscsi_write_to_socket`. -/
def writeTurn (w : World) : Res (Option Int × World) :=
  match w.iscsi.outqueueCurrent, w.iscsi.outqueue with
  | some a, _ => writeCurrent w a
  | none, a :: _ => andThen (takeHead w a) fun w => writeCurrent w a
  | none, [] => .ok (some 0, w)

/-- The loop of `iscsi_write_to_socket`. The number bounds the turns: each finishes the PDU being
sent or the next one of `outqueue`. -/
def writeLoop : Nat → World → Res (Int × World)
  | 0, _ => .error .diverges
  | fuel + 1, w => do
    match ← writeTurn w with
    | (some r, w) => .ok (r, w)
    | (none, w) => writeLoop fuel w

/-- `iscsi_write_to_socket`. -/
def iscsiWriteToSocket (w : World) : Res (Int × World) :=
  if w.iscsi.fd = -1 then .ok (-1, w) else writeLoop (w.iscsi.outqueue.length + 2) w

end Libiscsi
