import Libiscsi.Bytes

/-!
# The data of the initiator

The records of `include/iscsi-private.h`, `include/iscsi.h` and `include/scsi-lowlevel.h` that the
modelled functions read and write, and the `World` they live in.

A pointer to a PDU is an address (`Addr`) of the heap `World.pdus`, and the queues are lists of
addresses, so that a PDU that is at the same time in `waitpdu` and in `outqueue_current` is one
object, and a PDU that was freed is an address without an object. Addresses are never used twice.
The context is reached through the one pointer the application has (`World.iscsi`); the contexts
that reconnects put aside form a chain from it (`World.olds`). A function of the source that is
called on `iscsi->old_iscsi` is the same function of the `World` seen from that context
(`World.onOld`).

What the environment decides (the clock, the outcome of allocations and of system calls, the
numbers `rand` returns, the environment variables) is part of the `World`, as lists of outcomes
that the calls consume. Callbacks are not run: an invocation is recorded in `World.trace`, and
what the application does in reaction is a call of its own.
-/

namespace Libiscsi

/-- The address of a `struct iscsi_pdu`. -/
abbrev Addr := Nat

/-- The address of a `struct scsi_task`. -/
abbrev TaskPtr := Nat

/-- A C string: its bytes, without the terminating NUL. -/
abbrev CStr := List UInt8

/-- The ways in which a run of the program is lost. -/
inductive Fault where
  /-- A NULL pointer is dereferenced. -/
  | nullDeref
  /-- A PDU that was freed is read, written or freed again. -/
  | useAfterFree
  /-- `iscsi_lock` is acquired by the thread that holds it. -/
  | deadlock
  /-- A loop that does not end. -/
  | diverges
  deriving DecidableEq, Repr

/-- What a modelled function returns: a result, or the fault that ended the run. -/
abbrev Res (α : Type) := Except Fault α

/-! ## Constants -/

def iscsiRawHeaderSize : Nat := 48
def iscsiDigestSize : Nat := 4

def maxStringSize : Nat := 255
def maxIscsiNameSize : Nat := 223
def maxChapCLength : Nat := 2048

def iscsiPduImmediate : UInt8 := 0x40

def iscsiPduTextFinal : UInt8 := 0x80

def iscsiPduLoginTransit : UInt8 := 0x80
def iscsiPduLoginCsgSecneg : UInt8 := 0x00
def iscsiPduLoginCsgOpneg : UInt8 := 0x04
def iscsiPduLoginCsgFf : UInt8 := 0x0c
def iscsiPduLoginNsgOpneg : UInt8 := 0x01
def iscsiPduLoginNsgFf : UInt8 := 0x03

def iscsiPduScsiFinal : UInt8 := 0x80
def iscsiPduScsiRead : UInt8 := 0x40
def iscsiPduScsiWrite : UInt8 := 0x20
def iscsiPduScsiAttrSimple : UInt8 := 0x01

def iscsiPduDataFinal : UInt8 := 0x80
def iscsiPduDataAckRequested : UInt8 := 0x40
def iscsiPduDataResidualOverflow : UInt8 := 0x04
def iscsiPduDataResidualUnderflow : UInt8 := 0x02
def iscsiPduDataContainsStatus : UInt8 := 0x01

def iscsiPduNopOut : UInt8 := 0x00
def iscsiPduScsiRequest : UInt8 := 0x01
def iscsiPduScsiTaskManagementRequest : UInt8 := 0x02
def iscsiPduLoginRequest : UInt8 := 0x03
def iscsiPduTextRequest : UInt8 := 0x04
def iscsiPduDataOut : UInt8 := 0x05
def iscsiPduLogoutRequest : UInt8 := 0x06
def iscsiPduNopIn : UInt8 := 0x20
def iscsiPduScsiResponse : UInt8 := 0x21
def iscsiPduScsiTaskManagementResponse : UInt8 := 0x22
def iscsiPduLoginResponse : UInt8 := 0x23
def iscsiPduTextResponse : UInt8 := 0x24
def iscsiPduDataIn : UInt8 := 0x25
def iscsiPduLogoutResponse : UInt8 := 0x26
def iscsiPduR2t : UInt8 := 0x31
def iscsiPduAsyncMsg : UInt8 := 0x32
def iscsiPduReject : UInt8 := 0x3f
def iscsiPduNoPdu : UInt8 := 0xff

def scsiOpcodeWrite10 : UInt8 := 0x2A
def scsiOpcodeWrite12 : UInt8 := 0xAA
def scsiOpcodeWrite16 : UInt8 := 0x8A

/-- A status handed to a callback (`enum scsi_status`, or the status byte of a reply). -/
abbrev Status := Nat

def scsiStatusGood : Status := 0
def scsiStatusCheckCondition : Status := 2
def scsiStatusConditionMet : Status := 4
def scsiStatusBusy : Status := 8
def scsiStatusReservationConflict : Status := 0x18
def scsiStatusTaskSetFull : Status := 0x28
def scsiStatusAcaActive : Status := 0x30
def scsiStatusTaskAborted : Status := 0x40
def scsiStatusRedirect : Status := 0x101
def scsiStatusCancelled : Status := 0x0f000000
def scsiStatusError : Status := 0x0f000001
def scsiStatusTimeout : Status := 0x0f000002

/-- `enum scsi_xfer_dir`. -/
inductive XferDir where
  | none | read | write
  deriving DecidableEq, Repr

/-- `enum iscsi_header_digest` and `enum iscsi_data_digest`. -/
inductive DigestMode where
  | none | noneCrc32c | crc32cNone | crc32c
  deriving DecidableEq, Repr

/-- `enum iscsi_chap_auth`. -/
inductive ChapAuth where
  | md5 | sha1 | sha256 | sha3256
  deriving DecidableEq, Repr

/-- `enum iscsi_session_type`; a context that was just created has none. -/
inductive SessionType where
  | unset | discovery | normal
  deriving DecidableEq, Repr

/-- The sub-phases `ISCSI_LOGIN_SECNEG_PHASE_*` of the security negotiation. -/
inductive SecnegPhase where
  | offerChap | selectAlgorithm | sendResponse
  deriving DecidableEq, Repr

/-- The functions that are installed as callbacks: those of the library, and the application's. -/
inductive Callback where
  /-- A function of the application. -/
  | user (id : Nat)
  | scsiResponseCb
  | connectCb
  | loginCb
  | testunitreadyCb
  | inquiryPage0x0Cb
  | inquiryPage0x80Cb
  | reconnectCb
  | reconnectAfterLogout
  deriving DecidableEq, Repr

/-! ## Tasks -/

/-- `struct scsi_iovec`. -/
structure ScsiIovec where
  iovBase : Nat := 0
  iovLen : Nat := 0
  deriving DecidableEq, Repr

/-- `struct scsi_iovector`; `iov` is `none` for the NULL vector, and `niov` its length. -/
structure ScsiIovector where
  iov : Option (List ScsiIovec) := none
  offset : Nat := 0
  consumed : Nat := 0
  deriving DecidableEq, Repr

/-- `struct scsi_sense`. -/
structure ScsiSense where
  errorType : UInt8 := 0
  key : UInt8 := 0
  ascq : UInt16 := 0
  senseSpecific : Bool := false
  illParamInCdb : Bool := false
  bitPointerValid : Bool := false
  bitPointer : UInt8 := 0
  fieldPointer : UInt16 := 0
  infoValid : Bool := false
  information : Nat := 0
  deriving DecidableEq, Repr

/-- `enum scsi_residual`. -/
inductive ScsiResidual where
  | noResidual | underflow | overflow
  deriving DecidableEq, Repr

/-- `struct scsi_task`. `expxferlen` is the value the code converts to `uint32_t` at each use. -/
structure ScsiTask where
  status : Status := 0
  cdb : List UInt8 := []
  xferDir : XferDir := .none
  expxferlen : UInt32 := 0
  residualStatus : ScsiResidual := .noResidual
  residual : UInt32 := 0
  sense : ScsiSense := {}
  datain : List UInt8 := []
  ptr : Option Addr := none
  itt : UInt32 := 0
  cmdsn : UInt32 := 0
  lun : UInt32 := 0
  iovectorIn : ScsiIovector := {}
  iovectorOut : ScsiIovector := {}
  deriving DecidableEq, Repr

/-! ## PDUs -/

def iscsiPduDeleteWhenSent : UInt32 := 0x00000001
def iscsiPduDropOnReconnect : UInt32 := 0x00000004
def iscsiPduCorkWhenSent : UInt32 := 0x00000008

/-- `struct iscsi_scsi_cbdata`. -/
structure ScsiCbdata where
  callback : Option Callback := none
  privateData : Nat := 0
  task : Option TaskPtr := none
  deriving DecidableEq, Repr

/-- `struct iscsi_pdu`. A `struct iscsi_data` is the list of its `size` bytes; the zero bytes up
to the next multiple of four that the buffer of `outdata` ends with are added when the PDU is
sent. -/
structure Pdu where
  flags : UInt32 := 0
  lun : UInt32 := 0
  itt : UInt32 := 0
  cmdsn : UInt32 := 0
  datasn : UInt32 := 0
  responseOpcode : UInt8 := 0
  callback : Option Callback := none
  privateData : Nat := 0
  outdata : List UInt8 := []
  outdataWritten : Nat := 0
  payloadOffset : Nat := 0
  payloadLen : Nat := 0
  payloadWritten : Nat := 0
  indata : List UInt8 := []
  scsiCbdata : ScsiCbdata := {}
  scsiTimeout : Nat := 0
  expxferlen : UInt32 := 0
  calculatedDataDigest : UInt32 := 0
  outdataDigestComputed : Bool := false
  deriving DecidableEq, Repr

namespace Pdu

/-- `pdu->outdata.data[0] & 0x3f`. -/
def opcode (p : Pdu) : UInt8 := byte p.outdata 0 &&& 0x3f

/-- `pdu->outdata.data[0] & ISCSI_PDU_IMMEDIATE`. -/
def immediate (p : Pdu) : Bool := byte p.outdata 0 &&& iscsiPduImmediate != 0

/-- `pdu->flags & flag`. -/
def hasFlag (p : Pdu) (flag : UInt32) : Bool := p.flags &&& flag != 0

end Pdu

/-- `struct iscsi_in_pdu`. `data` is `none` while no buffer is allocated, else the bytes read into
it so far. `user` is not in the source: it collects the bytes that were read past the buffer,
straight into the iovec of a task. -/
structure InPdu where
  hdr : List UInt8 := []
  dataPos : Nat := 0
  data : Option (List UInt8) := none
  dataDigestBuf : List UInt8 := []
  calculatedDataDigest : UInt32 := 0
  user : List UInt8 := []
  deriving DecidableEq, Repr

namespace InPdu

/-- `in->hdr[0] & 0x3f`. -/
def opcode (p : InPdu) : UInt8 := byte p.hdr 0 &&& 0x3f

/-- `in->hdr[1]`. -/
def flags (p : InPdu) : UInt8 := byte p.hdr 1

/-- `scsi_get_uint32(&in->hdr[16])`. -/
def itt (p : InPdu) : UInt32 := scsiGetUint32 p.hdr 16

/-- The first `data_pos` bytes of `in->data`. -/
def payload (p : InPdu) : List UInt8 := (p.data.getD []).take p.dataPos

end InPdu

/-! ## Contexts -/

/-- `struct iscsi_context`, for the TCP transport. -/
structure Context where
  initiatorName : CStr := []
  targetName : CStr := []
  targetAddress : CStr := []
  targetName2 : CStr := []
  connectedPortal : CStr := []
  portal : CStr := []
  initiatorAlias : CStr := []
  bindInterfaces : CStr := []
  unitSerialNumber : CStr := []
  chapAuth : ChapAuth := .md5
  user : CStr := []
  passwd : CStr := []
  chapC : CStr := []
  targetUser : CStr := []
  targetPasswd : CStr := []
  targetChapI : Int := 0
  targetChapR : List UInt8 := List.replicate 32 0
  sessionType : SessionType := .unset
  isid : List UInt8 := List.replicate 6 0
  rdmaAckTimeout : UInt8 := 0
  itt : UInt32 := 0
  cmdsn : UInt32 := 0
  minCmdsnWaiting : UInt32 := 0
  expcmdsn : UInt32 := 0
  maxcmdsn : UInt32 := 0
  statsn : UInt32 := 0
  wantHeaderDigest : DigestMode := .none
  headerDigest : DigestMode := .none
  wantDataDigest : DigestMode := .none
  dataDigest : DigestMode := .none
  fd : Int := -1
  isConnected : Bool := false
  isCorked : Bool := false
  tcpUserTimeout : Int := 0
  tcpKeepcnt : Int := 0
  tcpKeepintvl : Int := 0
  tcpKeepidle : Int := 0
  tcpSyncnt : Int := 0
  tcpNonblocking : Bool := false
  currentPhase : UInt8 := 0
  nextPhase : UInt8 := 0
  secnegPhase : SecnegPhase := .offerChap
  loginAttempts : Nat := 0
  isLoggedin : Bool := false
  bindInterfacesCnt : Nat := 0
  nopsInFlight : Nat := 0
  chapA : Int := 0
  chapI : Int := 0
  socketStatusCb : Option Callback := none
  connectData : Nat := 0
  outqueue : List Addr := []
  outqueueCurrent : Option Addr := none
  waitpdu : List Addr := []
  incoming : Option InPdu := none
  maxBurstLength : UInt32 := 0
  firstBurstLength : UInt32 := 0
  initiatorMaxRecvDataSegmentLength : UInt32 := 0
  targetMaxRecvDataSegmentLength : UInt32 := 0
  /-- `want_initial_r2t == ISCSI_INITIAL_R2T_YES`. -/
  wantInitialR2t : Bool := false
  useInitialR2t : Bool := false
  /-- `want_immediate_data == ISCSI_IMMEDIATE_DATA_YES`. -/
  wantImmediateData : Bool := false
  useImmediateData : Bool := false
  lun : Int := 0
  noAutoReconnect : Bool := false
  reconnectDeferred : Bool := false
  reconnectMaxRetries : Int := 0
  pendingReconnect : Bool := false
  logLevel : Int := 0
  logFn : Nat := 0
  cacheAllocations : Bool := false
  nextReconnect : Nat := 0
  scsiTimeout : Int := 0
  retryCnt : Int := 0
  noUaOnReconnect : Bool := false
  fdDupCb : Nat := 0
  fdDupOpaque : Nat := 0
  deriving DecidableEq, Repr, Inhabited

namespace Context

/-- The PDUs the context refers to: its two queues and the PDU being sent. -/
def addrs (c : Context) : List Addr := c.outqueue ++ c.waitpdu ++ c.outqueueCurrent.toList

/-- `iscsi->outqueue = outqueue`. -/
def setOutqueue (c : Context) (outqueue : List Addr) : Context := { c with outqueue }

/-- `iscsi->waitpdu = waitpdu`. -/
def setWaitpdu (c : Context) (waitpdu : List Addr) : Context := { c with waitpdu }

/-- `iscsi->outqueue_current = outqueueCurrent`. -/
def setOutqueueCurrent (c : Context) (outqueueCurrent : Option Addr) : Context :=
  { c with outqueueCurrent }

/-- `iscsi->cmdsn = cmdsn`. -/
def setCmdsn (c : Context) (cmdsn : UInt32) : Context := { c with cmdsn }

section
variable (c : Context) (l m : List Addr) (o : Option Addr) (v : UInt32)

@[simp] theorem setOutqueue_outqueue : (c.setOutqueue l).outqueue = l := rfl
@[simp] theorem setOutqueue_waitpdu : (c.setOutqueue l).waitpdu = c.waitpdu := rfl
@[simp] theorem setOutqueue_outqueueCurrent :
    (c.setOutqueue l).outqueueCurrent = c.outqueueCurrent := rfl
@[simp] theorem setOutqueue_cmdsn : (c.setOutqueue l).cmdsn = c.cmdsn := rfl
@[simp] theorem setWaitpdu_outqueue : (c.setWaitpdu l).outqueue = c.outqueue := rfl
@[simp] theorem setWaitpdu_waitpdu : (c.setWaitpdu l).waitpdu = l := rfl
@[simp] theorem setWaitpdu_outqueueCurrent :
    (c.setWaitpdu l).outqueueCurrent = c.outqueueCurrent := rfl
@[simp] theorem setWaitpdu_cmdsn : (c.setWaitpdu l).cmdsn = c.cmdsn := rfl
@[simp] theorem setOutqueueCurrent_outqueue : (c.setOutqueueCurrent o).outqueue = c.outqueue := rfl
@[simp] theorem setOutqueueCurrent_waitpdu : (c.setOutqueueCurrent o).waitpdu = c.waitpdu := rfl
@[simp] theorem setOutqueueCurrent_outqueueCurrent :
    (c.setOutqueueCurrent o).outqueueCurrent = o := rfl
@[simp] theorem setOutqueueCurrent_cmdsn : (c.setOutqueueCurrent o).cmdsn = c.cmdsn := rfl
@[simp] theorem setCmdsn_outqueue : (c.setCmdsn v).outqueue = c.outqueue := rfl
@[simp] theorem setCmdsn_waitpdu : (c.setCmdsn v).waitpdu = c.waitpdu := rfl
@[simp] theorem setCmdsn_outqueueCurrent : (c.setCmdsn v).outqueueCurrent = c.outqueueCurrent := rfl
@[simp] theorem setCmdsn_cmdsn : (c.setCmdsn v).cmdsn = v := rfl

@[simp] theorem setOutqueue_headerDigest : (c.setOutqueue l).headerDigest = c.headerDigest := rfl
@[simp] theorem setWaitpdu_headerDigest : (c.setWaitpdu l).headerDigest = c.headerDigest := rfl
@[simp] theorem setOutqueueCurrent_headerDigest :
    (c.setOutqueueCurrent o).headerDigest = c.headerDigest := rfl
@[simp] theorem setCmdsn_headerDigest : (c.setCmdsn v).headerDigest = c.headerDigest := rfl

@[simp] theorem setOutqueue_self : c.setOutqueue c.outqueue = c := rfl
@[simp] theorem setWaitpdu_self : c.setWaitpdu c.waitpdu = c := rfl
@[simp] theorem setOutqueueCurrent_self : c.setOutqueueCurrent c.outqueueCurrent = c := rfl
@[simp] theorem setCmdsn_self : c.setCmdsn c.cmdsn = c := rfl
@[simp] theorem setOutqueue_setOutqueue (l' : _) :
    (c.setOutqueue l).setOutqueue l' = c.setOutqueue l' := rfl
@[simp] theorem setWaitpdu_setWaitpdu (l' : _) :
    (c.setWaitpdu l).setWaitpdu l' = c.setWaitpdu l' := rfl
@[simp] theorem setOutqueueCurrent_setOutqueueCurrent (o' : _) :
    (c.setOutqueueCurrent o).setOutqueueCurrent o' = c.setOutqueueCurrent o' := rfl
@[simp] theorem setCmdsn_setCmdsn (v' : _) :
    (c.setCmdsn v).setCmdsn v' = c.setCmdsn v' := rfl
@[simp] theorem setWaitpdu_setOutqueue :
    (c.setWaitpdu m).setOutqueue l = (c.setOutqueue l).setWaitpdu m := rfl
@[simp] theorem setOutqueueCurrent_setOutqueue :
    (c.setOutqueueCurrent o).setOutqueue l = (c.setOutqueue l).setOutqueueCurrent o := rfl
@[simp] theorem setOutqueueCurrent_setWaitpdu :
    (c.setOutqueueCurrent o).setWaitpdu m = (c.setWaitpdu m).setOutqueueCurrent o := rfl
@[simp] theorem setCmdsn_setOutqueue :
    (c.setCmdsn v).setOutqueue l = (c.setOutqueue l).setCmdsn v := rfl
@[simp] theorem setCmdsn_setWaitpdu :
    (c.setCmdsn v).setWaitpdu m = (c.setWaitpdu m).setCmdsn v := rfl
@[simp] theorem setCmdsn_setOutqueueCurrent :
    (c.setCmdsn v).setOutqueueCurrent o = (c.setOutqueueCurrent o).setCmdsn v := rfl

end

end Context

/-! ## The world -/

/-- The outcome of a `send` or `writev` of at least one byte. -/
inductive SendResult where
  /-- One byte and `more` bytes after it were accepted, as far as there are that many. -/
  | accepted (more : Nat)
  /-- `EAGAIN` or `EWOULDBLOCK`. -/
  | again
  | error
  deriving DecidableEq, Repr

/-- What can be observed of a run, in the order in which it happened. -/
inductive Event where
  /-- `pdu->callback` was called. -/
  | callback (pdu : Addr) (cb : Callback) (status : Status) (privateData : Nat)
  /-- `iscsi_scsi_response_cb` called the callback of the SCSI command. -/
  | scsiCallback (cb : Callback) (status : Status) (task : TaskPtr) (privateData : Nat)
  /-- `socket_status_cb` was called. -/
  | socketStatus (cb : Callback) (status : Status) (privateData : Nat)
  /-- A PDU was freed. -/
  | free (pdu : Addr)
  /-- A PDU was handed to the transport. -/
  | queued (addr : Addr) (pdu : Pdu)
  /-- A PDU became `outqueue_current`, with the header it goes out with. -/
  | taken (addr : Addr) (pdu : Pdu)
  /-- The socket accepted bytes of a PDU. -/
  | sent (addr : Addr) (bytes : List UInt8)
  /-- A SCSI command was accepted by `iscsi_scsi_command_async` as the PDU at `addr`. -/
  | submitted (addr : Addr) (task : TaskPtr) (lun : UInt32) (cb : Option Callback)
      (privateData : Nat)
  deriving DecidableEq, Repr

/-- The state of the program and of its environment. -/
structure World where
  iscsi : Context := {}
  /-- `iscsi->old_iscsi`, the `old_iscsi` of that context, and so on up to the NULL pointer. -/
  olds : List Context := []
  pdus : Addr → Option Pdu := fun _ => none
  tasks : TaskPtr → ScsiTask := fun _ => {}
  /-- The memory the data-out iovecs of the tasks point to. -/
  mem : Nat → UInt8 := fun _ => 0
  /-- The next address the allocator hands out. -/
  brk : Addr := 0
  /-- `time(NULL)`. -/
  now : Nat := 0
  /-- `HAVE_PTHREAD`: without it `iscsi_mt_spin_lock` expands to nothing. -/
  havePthread : Bool := true
  /-- The outcomes of the next allocations; the ones after the last succeed. -/
  allocs : List Bool := []
  /-- The outcomes of the next `send` and `writev`; the ones after the last are `EAGAIN`. -/
  sends : List SendResult := []
  /-- The outcomes of the next attempts to open and connect a socket; the ones after the last
  succeed. -/
  connects : List Bool := []
  /-- The numbers the next calls of `rand` return; the ones after the last return 0. -/
  rands : List Nat := []
  /-- `LIBISCSI_DROP_CONN_ON_ASYNC_EVENT1` is set. -/
  dropConnOnAsyncEvent1 : Bool := false
  /-- `LIBISCSI_IGNORE_NOP_OUT_ON_STUCK_WAITPDU_QUEUE` is set. -/
  ignoreNopOutOnStuckWaitpduQueue : Bool := false
  /-- `LIBISCSI_ALLOW_TARGETNAME_REDIRECT` is set. -/
  allowTargetnameRedirect : Bool := false
  trace : List Event := []

end Libiscsi
