import Libiscsi.Crc32c
import Libiscsi.Lib.Framing
import Libiscsi.Pdu

/-!
# Reading PDUs from a socket

`iscsi_read_from_socket` (`lib/socket.c`): the header, the data segment with its padding and the
data digest are read by one `recv` each, as far as they have arrived, and what has been read of a
PDU stays in `iscsi->incoming` until the next call. Whatever the cuts are, the PDUs that are handed
on are the frames of the stream (`readCalls_unique`).
-/

namespace Libiscsi

open Framing

/-! ## The socket -/

/-- What a nonblocking `recv` finds: bytes, at least one; nothing yet (`EAGAIN`, `EINTR`); the end
of the stream; or an error. -/
inductive Arrival where
  | bytes (b : UInt8) (rest : List UInt8)
  | again
  | closed
  | failed
  deriving DecidableEq, Repr

/-- The bytes that arrive. -/
def Arrival.stream : Arrival → List UInt8
  | .bytes b rest => b :: rest
  | _ => []

/-- The bytes that are still to be read. -/
def streamOf (socket : List Arrival) : List UInt8 := socket.flatMap Arrival.stream

/-- What `recv` returns; no bytes are the return value 0. -/
inductive Received where
  | bytes (bytes : List UInt8)
  | again
  | failed
  deriving DecidableEq, Repr

/-- What is left of an arrival. -/
def restOf : List UInt8 → List Arrival
  | [] => []
  | b :: rest => [.bytes b rest]

/-- `recv` for at most `count` bytes. -/
def recv (socket : List Arrival) (count : Nat) : Received × List Arrival :=
  if count = 0 then (.bytes [], socket)
  else
    match socket with
    | [] => (.again, [])
    | .bytes b rest :: socket =>
      (.bytes ((b :: rest).take count), restOf ((b :: rest).drop count) ++ socket)
    | .again :: socket => (.again, socket)
    | .closed :: socket => (.bytes [], .closed :: socket)
    | .failed :: socket => (.failed, socket)

/-! ## One PDU -/

/-- What the task of a Data-In has for its data: nothing, vectors with room for them, or vectors
that end before them. -/
inductive Room where
  | none | room | short
  deriving DecidableEq, Repr

/-- What has been read of a PDU. The data are those of the whole segment with its padding, be they
stored in `in->data` or in the vectors of a task. -/
structure Incoming where
  hdr : List UInt8 := []
  data : List UInt8 := []
  digest : List UInt8 := []
  calculatedDataDigest : UInt32 := 0xffffffff
  deriving DecidableEq, Repr

/-- What the reading depends on while it goes on: the digests, the limit of a data segment, the task
that a header belongs to, and what `iscsi_process_pdu` and the condition of the loop make of the
PDUs (`none` where the processing fails). -/
structure ReadConfig where
  headerDigest : DigestMode
  dataDigest : DigestMode
  initiatorMaxRecvDataSegmentLength : UInt32
  vectors : List UInt8 → Room
  handle : List Incoming → Option Bool

/-- The data segment with its padding. -/
def paddedSize (hdr : List UInt8) : Nat := iscsiGetPduDataSize hdr + iscsiGetPduPaddingSize hdr

/-- How a turn of the loop ends before its PDU is complete: by `break` (`ok`), or with an error. -/
structure ReadExit where
  ok : Bool
  incoming : Incoming
  socket : List Arrival
  deriving DecidableEq, Repr

namespace ReadConfig
variable (cfg : ReadConfig)

/-- `hdr_size`. -/
def hdrSize : Nat := iscsiHeaderSize cfg.headerDigest

/-- `do_data_digest`. -/
def doDataDigest : Bool := cfg.dataDigest ≠ .none

/-- The bytes of the data digest. -/
def digestSize (hdr : List UInt8) : Nat :=
  if paddedSize hdr ≠ 0 ∧ cfg.doDataDigest then iscsiDigestSize else 0

/-- The header is read. -/
def readHeader (p : Incoming) (socket : List Arrival) :
    Except ReadExit (Incoming × List Arrival) :=
  if p.hdr.length < cfg.hdrSize then
    match recv socket (cfg.hdrSize - p.hdr.length) with
    | (.again, socket) => .error ⟨true, p, socket⟩
    | (.failed, socket) => .error ⟨false, p, socket⟩
    | (.bytes bytes, socket) =>
      if bytes = [] then .error ⟨false, p, socket⟩
      else
        let p := { p with hdr := p.hdr ++ bytes }
        if p.hdr.length < cfg.hdrSize then .error ⟨true, p, socket⟩ else .ok (p, socket)
  else .ok (p, socket)

/-- How many bytes of the data segment are asked for: without the padding where they go to the
vectors of a task; `none` where these end too early. -/
def askedFor (p : Incoming) : Option Nat :=
  let count := paddedSize p.hdr - p.data.length
  let padding := iscsiGetPduPaddingSize p.hdr
  match cfg.vectors p.hdr with
  | .none => some count
  | .room => some (if count > padding then count - padding else count)
  | .short => if count > padding then none else some count

/-- The data segment is read. -/
def readSegment (p : Incoming) (socket : List Arrival) :
    Except ReadExit (Incoming × List Arrival) :=
  if iscsiGetPduDataSize p.hdr > cfg.initiatorMaxRecvDataSegmentLength.toNat then
    .error ⟨false, p, socket⟩
  else if paddedSize p.hdr = 0 then .ok (p, socket)
  else
    match cfg.askedFor p with
    | none => .error ⟨false, p, socket⟩
    | some count =>
      match recv socket count with
      | (.again, socket) => .error ⟨true, p, socket⟩
      | (.failed, socket) => .error ⟨false, p, socket⟩
      | (.bytes bytes, socket) =>
        if bytes = [] then .error ⟨false, p, socket⟩
        else
          let p := { p with
            data := p.data ++ bytes
            calculatedDataDigest := if cfg.doDataDigest then
              crc32cChain p.calculatedDataDigest bytes else p.calculatedDataDigest }
          if p.data.length < paddedSize p.hdr then .error ⟨true, p, socket⟩ else .ok (p, socket)

/-- The data digest is read. -/
def readDigest (p : Incoming) (socket : List Arrival) :
    Except ReadExit (Incoming × List Arrival) :=
  if p.digest.length < cfg.digestSize p.hdr then
    match recv socket (iscsiDigestSize - p.digest.length) with
    | (.again, socket) => .error ⟨true, p, socket⟩
    | (.failed, socket) => .error ⟨false, p, socket⟩
    | (.bytes bytes, socket) =>
      if bytes = [] then .error ⟨false, p, socket⟩
      else
        let p := { p with digest := p.digest ++ bytes }
        if p.digest.length < iscsiDigestSize then .error ⟨true, p, socket⟩ else .ok (p, socket)
  else .ok (p, socket)

/-- A turn of the loop, until the PDU is complete. -/
def readTurn (p : Incoming) (socket : List Arrival) :
    Except ReadExit (Incoming × List Arrival) := do
  let (p, socket) ← cfg.readHeader p socket
  let (p, socket) ← cfg.readSegment p socket
  cfg.readDigest p socket

end ReadConfig

/-! ## Calls -/

/-- The PDU that is being read, the PDUs that were handed on, and what is left in the socket. -/
structure Reader where
  incoming : Incoming := {}
  delivered : List Incoming := []
  socket : List Arrival := []
  deriving DecidableEq, Repr

namespace ReadConfig
variable (cfg : ReadConfig)

/-- The loop of `iscsi_read_from_socket`: whether 0 is returned. The number bounds the turns, each
of which but the last reads a header. -/
def readLoop : Nat → Reader → Bool × Reader
  | 0, s => (false, s)
  | fuel + 1, s =>
    match cfg.readTurn s.incoming s.socket with
    | .error e => (e.ok, { s with incoming := e.incoming, socket := e.socket })
    | .ok (p, socket) =>
      let s : Reader := { incoming := {}, delivered := s.delivered ++ [p], socket }
      match cfg.handle s.delivered with
      | none => (false, s)
      | some true => readLoop fuel s
      | some false => (true, s)

/-- `iscsi_read_from_socket`, when more has arrived. -/
def iscsiReadFromSocket (s : Reader) (arrivals : List Arrival) : Bool × Reader :=
  cfg.readLoop ((streamOf (s.socket ++ arrivals)).length + 1)
    { s with socket := s.socket ++ arrivals }

/-- Calls one after the other, until one fails: whether none does. -/
def readCalls : Reader → List (List Arrival) → Bool × Reader
  | s, [] => (true, s)
  | s, arrivals :: calls =>
    match cfg.iscsiReadFromSocket s arrivals with
    | (false, s) => (false, s)
    | (true, s) => readCalls s calls

end ReadConfig

end Libiscsi
