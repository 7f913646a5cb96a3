import Libiscsi.Cancel

/-!
# Settings, connecting and reconnecting

`iscsi_create_context` and the setters (`lib/init.c`, `lib/socket.c`, `lib/login.c`,
`lib/logging.c`, `lib/iser.c`), `iscsi_connect_async` (`lib/socket.c`), and
`iscsi_full_connect_async`, `iscsi_defer_reconnect` and `reconnect` (`lib/connect.c`).

Descriptors are dup'ed without failure, and the global counter that picks one of the bound
interfaces is left out.
-/

namespace Libiscsi

/-- `strncpy(dst, s, n)` into a buffer of `n + 1` bytes whose last one is NUL. -/
def strncpy (s : CStr) (n : Nat) : CStr := s.take n

/-- The environment variables that `iscsi_create_context` looks at, after `atoi`. -/
structure Environ where
  debug : Option Int := none
  tcpUserTimeout : Option Int := none
  tcpKeepcnt : Option Int := none
  tcpKeepintvl : Option Int := none
  tcpKeepidle : Option Int := none
  tcpSyncnt : Option Int := none
  bindInterfaces : Option CStr := none
  rdmaAckTimeout : Option UInt8 := none
  cacheAllocations : Option Int := none
  deriving DecidableEq, Repr

/-- `iscsi_log_to_stderr`, as a value of `log_fn`. -/
def iscsiLogToStderr : Nat := 1

/-! ## Setters -/

section
variable (c : Context)

/-- `iscsi_set_isid_oui`. -/
def iscsiSetIsidOui (oui qualifier : UInt32) : Context :=
  { c with isid := [(oui >>> 16).toUInt8 &&& 0x3f, (oui >>> 8).toUInt8, oui.toUInt8,
      (qualifier >>> 16).toUInt8, (qualifier >>> 8).toUInt8, qualifier.toUInt8] }

/-- `iscsi_set_isid_en`. -/
def iscsiSetIsidEn (en qualifier : UInt32) : Context :=
  { c with isid := [0x40, (en >>> 16).toUInt8, (en >>> 8).toUInt8, en.toUInt8,
      (qualifier >>> 8).toUInt8, qualifier.toUInt8] }

/-- The bytes that `iscsi_set_isid_random` writes. -/
def isidRandom (rnd qualifier : UInt32) : List UInt8 :=
  [0x80, (rnd >>> 16).toUInt8, (rnd >>> 8).toUInt8, rnd.toUInt8, (qualifier >>> 8).toUInt8,
    qualifier.toUInt8]

/-- `iscsi_set_isid_random`. -/
def iscsiSetIsidRandom (rnd qualifier : UInt32) : Context :=
  { c with isid := isidRandom rnd qualifier }

/-- `iscsi_set_isid_reserved`. -/
def iscsiSetIsidReserved : Context := { c with isid := [0xc0, 0, 0, 0, 0, 0] }

/-- `iscsi_set_alias`. -/
def iscsiSetAlias (name : CStr) : Context :=
  if c.isLoggedin then c else { c with initiatorAlias := strncpy name maxStringSize }

/-- `iscsi_set_targetname`. -/
def iscsiSetTargetname (name : CStr) : Context :=
  if c.isLoggedin then c else { c with targetName := strncpy name maxIscsiNameSize }

/-- `iscsi_set_unit_serial_number`. -/
def iscsiSetUnitSerialNumber (usn : CStr) : Context :=
  if c.isLoggedin then c else { c with unitSerialNumber := strncpy usn maxStringSize }

/-- `iscsi_set_log_level`. -/
def iscsiSetLogLevel (level : Int) : Context := { c with logLevel := level }

/-- `iscsi_set_log_fn`. -/
def iscsiSetLogFn (fn : Nat) : Context := { c with logFn := fn }

/-- `iscsi_set_header_digest`. -/
def iscsiSetHeaderDigest (headerDigest : DigestMode) : Context :=
  if c.isLoggedin then c else { c with wantHeaderDigest := headerDigest }

/-- `iscsi_set_data_digest`. -/
def iscsiSetDataDigest (dataDigest : DigestMode) : Context :=
  if c.isLoggedin then c else { c with wantDataDigest := dataDigest }

/-- `iscsi_set_initiator_username_pwd`; a NULL string is the empty one. -/
def iscsiSetInitiatorUsernamePwd (user passwd : CStr) : Context :=
  if user = [] ∨ passwd = [] then { c with user := [], passwd := [] }
  else { c with user := strncpy user maxStringSize, passwd := strncpy passwd maxStringSize }

/-- `iscsi_set_target_username_pwd`. -/
def iscsiSetTargetUsernamePwd (user passwd : CStr) : Context :=
  if user = [] ∨ passwd = [] then { c with targetUser := [], targetPasswd := [] }
  else { c with targetUser := strncpy user maxStringSize
                targetPasswd := strncpy passwd maxStringSize }

/-- `iscsi_set_immediate_data`. -/
def iscsiSetImmediateData (immediateData : Bool) : Context :=
  if c.isLoggedin then c
  else { c with wantImmediateData := immediateData, useImmediateData := immediateData }

/-- `iscsi_set_initial_r2t`. -/
def iscsiSetInitialR2t (initialR2t : Bool) : Context :=
  if c.isLoggedin then c else { c with wantInitialR2t := initialR2t }

/-- `iscsi_set_timeout`. -/
def iscsiSetTimeout (timeout : Int) : Context := { c with scsiTimeout := timeout }

/-- `iscsi_set_fd_dup_cb`. -/
def iscsiSetFdDupCb (cb data : Nat) : Context := { c with fdDupCb := cb, fdDupOpaque := data }

/-- `iscsi_set_auth`. -/
def iscsiSetAuth (auth : ChapAuth) : Context := { c with chapAuth := auth }

/-- `iscsi_set_session_type`. -/
def iscsiSetSessionType (sessionType : SessionType) : Context :=
  if c.isLoggedin then c else { c with sessionType }

/-- `iscsi_set_tcp_syncnt`. -/
def iscsiSetTcpSyncnt (value : Int) : Context := { c with tcpSyncnt := value }

/-- `iscsi_set_tcp_user_timeout`. -/
def iscsiSetTcpUserTimeout (value : Int) : Context := { c with tcpUserTimeout := value }

/-- `iscsi_set_tcp_keepidle`. -/
def iscsiSetTcpKeepidle (value : Int) : Context := { c with tcpKeepidle := value }

/-- `iscsi_set_tcp_keepcnt`. -/
def iscsiSetTcpKeepcnt (value : Int) : Context := { c with tcpKeepcnt := value }

/-- `iscsi_set_tcp_keepintvl`. -/
def iscsiSetTcpKeepintvl (value : Int) : Context := { c with tcpKeepintvl := value }

/-- `iscsi_set_bind_interfaces`: the interfaces are counted by the commas of what was given. -/
def iscsiSetBindInterfaces (interfaces : CStr) : Context :=
  { c with bindInterfaces := strncpy interfaces maxStringSize
           bindInterfacesCnt := interfaces.count 0x2c + 1 }

/-- `iscsi_set_rdma_ack_timetout`. -/
def iscsiSetRdmaAckTimetout (value : UInt8) : Context := { c with rdmaAckTimeout := value }

/-- `iscsi_set_cache_allocations`. -/
def iscsiSetCacheAllocations (ca : Bool) : Context := { c with cacheAllocations := ca }

/-- `iscsi_set_no_ua_on_reconnect`. -/
def iscsiSetNoUaOnReconnect (state : Bool) : Context := { c with noUaOnReconnect := state }

/-- `iscsi_set_reconnect_max_retries`. -/
def iscsiSetReconnectMaxRetries (count : Int) : Context :=
  { c with reconnectMaxRetries := count }

end

/-! ## Creation -/

/-- `rand()`. -/
def World.rand (w : World) : Nat × World := (w.rands.headD 0, { w with rands := w.rands.tail })

/-- The context that `iscsi_create_context` fills in, from the name and the random number. -/
def freshContext (env : Environ) (initiatorName : CStr) (rnd : UInt32) : Context :=
  let iscsi : Context :=
    { initiatorName := strncpy initiatorName maxIscsiNameSize
      fd := -1
      isid := isidRandom rnd 0
      currentPhase := iscsiPduLoginCsgSecneg
      nextPhase := iscsiPduLoginNsgOpneg
      secnegPhase := .offerChap
      maxBurstLength := 262144
      firstBurstLength := 262144
      initiatorMaxRecvDataSegmentLength := 262144
      targetMaxRecvDataSegmentLength := 8192
      wantInitialR2t := false
      useInitialR2t := true
      wantImmediateData := true
      useImmediateData := true
      wantHeaderDigest := .noneCrc32c
      wantDataDigest := .none
      tcpKeepcnt := env.tcpKeepcnt.getD 3
      tcpKeepintvl := env.tcpKeepintvl.getD 30
      tcpKeepidle := env.tcpKeepidle.getD 30
      tcpUserTimeout := env.tcpUserTimeout.getD 0
      tcpSyncnt := env.tcpSyncnt.getD 0
      reconnectMaxRetries := -1
      chapAuth := .md5
      logLevel := env.debug.getD 0
      logFn := if env.debug.isSome then iscsiLogToStderr else 0
      rdmaAckTimeout := env.rdmaAckTimeout.getD 0
      cacheAllocations := env.cacheAllocations.getD 1 != 0 }
  match env.bindInterfaces with
  | none => iscsi
  | some interfaces => iscsiSetBindInterfaces iscsi interfaces

/-- `iscsi_create_context`. -/
def iscsiCreateContext (env : Environ) (initiatorName : CStr) (w : World) :
    Option Context × World :=
  if initiatorName = [] then (none, w)
  else
    let (ok, w) := w.malloc
    if !ok then (none, w)
    else
      let (rnd, w) := w.rand
      (some (freshContext env initiatorName (UInt32.ofNat rnd)), w)

/-! ## Connecting -/

/-- `struct connect_task`. -/
structure ConnectTask where
  cb : Callback
  privateData : Nat := 0
  lun : Int := 0
  numUas : Nat := 0
  deriving DecidableEq, Repr

/-- A call that `iscsi_full_connect_async` set off and that has not been answered yet: the PDU of
a login, or the PDU of a SCSI command, with the function that is called with the outcome and its
`private_data`. -/
structure Request where
  cb : Callback
  privateData : Addr
  deriving DecidableEq, Repr

/-- A call `ct->cb(iscsi, status, NULL, ct->private_data)`. -/
structure TaskCall where
  ct : Addr
  cb : Callback
  status : Status
  privateData : Nat
  deriving DecidableEq, Repr

/-- The program with what the functions of `lib/connect.c` work on. -/
structure Conn where
  world : World := {}
  env : Environ := {}
  /-- The `struct connect_task`s that are allocated. -/
  connectTasks : Addr → Option ConnectTask := fun _ => none
  /-- The requests of `lib/connect.c` that are under way. -/
  requests : List Request := []
  /-- The outcomes of the next attempts to parse and resolve a portal; the ones after the last
  succeed. -/
  resolves : List Bool := []
  /-- The outcomes of the next `iscsi_login_async`, `iscsi_testunitready_task` and
  `iscsi_inquiry_task`; the ones after the last succeed. -/
  starts : List Bool := []
  /-- The descriptor the next `socket` returns. -/
  nextFd : Nat := 3
  /-- The calls through the connect tasks so far. -/
  calls : List TaskCall := []

namespace Conn

/-- The context is changed. -/
def modify (c : Conn) (f : Context → Context) : Conn := { c with world := c.world.modify f }

/-- The outcome of the next attempt to resolve a portal. -/
def resolve (c : Conn) : Bool × Conn :=
  (c.resolves.headD true, { c with resolves := c.resolves.tail })

/-- `ct = p`. -/
def setConnectTask (c : Conn) (ct : Addr) (p : Option ConnectTask) : Conn :=
  { c with connectTasks := Function.update c.connectTasks ct p }

/-- The outcome of the next allocation. -/
def malloc (c : Conn) : Bool × Conn :=
  (c.world.malloc.1, { c with world := c.world.malloc.2 })

/-- A new socket, which takes the place of that of the old context if there is one. -/
def newSocket (c : Conn) : Conn :=
  let fd : Int :=
    match c.world.olds with
    | [] => c.nextFd
    | old :: _ => old.fd
  { c.modify fun iscsi => { iscsi with fd, tcpNonblocking := true } with nextFd := c.nextFd + 1 }

/-- `iscsi_tcp_connect`. A socket that cannot be opened or connected is closed. -/
def tcpConnect (c : Conn) : Int × Conn :=
  let ok := c.world.connects.headD true
  let c := { c with world := { c.world with connects := c.world.connects.tail } }
  if ok then (0, c.newSocket) else (-1, c.modify fun iscsi => { iscsi with fd := -1 })

/-- `iscsi_connect_async`. -/
def connectAsync (c : Conn) (portal : CStr) (cb : Callback) (privateData : Nat) : Int × Conn :=
  if c.world.iscsi.fd ≠ -1 then (-1, c)
  else
    let (ok, c) := c.malloc
    if !ok then (-1, c)
    else
      let (ok, c) := c.resolve
      if !ok then (-1, c)
      else
        let c := c.modify fun iscsi =>
          { iscsi with socketStatusCb := some cb, connectData := privateData }
        let (r, c) := c.tcpConnect
        if r < 0 then (-1, c)
        else (0, c.modify fun iscsi =>
          { iscsi with connectedPortal := strncpy portal maxStringSize })

/-- `iscsi_full_connect_async`. No portal is that of the context itself. -/
def fullConnectAsync (c : Conn) (portal : Option CStr) (lun : Int) (cb : Callback)
    (privateData : Nat) : Int × Conn :=
  let c := c.modify fun iscsi =>
    { iscsi with lun, portal := (portal.map (strncpy · maxStringSize)).getD iscsi.portal }
  let (ok, c) := c.malloc
  if !ok then (-12, c)
  else
    let ct := c.world.brk
    let c := { c with world := { c.world with brk := ct + 1 } }
    let c := c.setConnectTask ct (some { cb, lun, numUas := 0, privateData })
    let (r, c) := c.connectAsync (portal.getD c.world.iscsi.portal) .connectCb ct
    if r ≠ 0 then (-12, c.setConnectTask ct none) else (0, c)

/-! ## Reconnecting -/

/-- `iscsi_defer_reconnect`. -/
def deferReconnect (c : Conn) : Res Conn := do
  let w ← iscsiCancelPdus (c.world.modify fun iscsi => { iscsi with reconnectDeferred := true })
  .ok { c with world := w }

/-- `reconnect_max_retries` is exceeded. -/
def retriesExceeded (w : World) : Bool :=
  w.iscsi.reconnectMaxRetries != -1 &&
    match w.olds with
    | [] => false
    | old :: _ => decide (old.retryCnt > w.iscsi.reconnectMaxRetries)

/-- The settings that `reconnect` copies into the context it has created. -/
def copySettings (iscsi tmp : Context) : Context :=
  let tmp := iscsiSetTargetname tmp iscsi.targetName
  let tmp := iscsiSetHeaderDigest tmp iscsi.wantHeaderDigest
  let tmp := iscsiSetDataDigest tmp iscsi.wantDataDigest
  let tmp := iscsiSetInitiatorUsernamePwd tmp iscsi.user iscsi.passwd
  let tmp := iscsiSetTargetUsernamePwd tmp iscsi.targetUser iscsi.targetPasswd
  let tmp := iscsiSetSessionType tmp .normal
  { tmp with
    lun := iscsi.lun
    portal := strncpy iscsi.portal maxStringSize
    bindInterfaces := strncpy iscsi.bindInterfaces maxStringSize
    bindInterfacesCnt := iscsi.bindInterfacesCnt
    unitSerialNumber := strncpy iscsi.unitSerialNumber maxStringSize
    logLevel := iscsi.logLevel
    logFn := iscsi.logFn
    tcpUserTimeout := iscsi.tcpUserTimeout
    tcpKeepidle := iscsi.tcpKeepidle
    tcpKeepcnt := iscsi.tcpKeepcnt
    tcpKeepintvl := iscsi.tcpKeepintvl
    tcpSyncnt := iscsi.tcpSyncnt
    cacheAllocations := iscsi.cacheAllocations
    scsiTimeout := iscsi.scsiTimeout
    noUaOnReconnect := iscsi.noUaOnReconnect
    fdDupCb := iscsi.fdDupCb
    fdDupOpaque := iscsi.fdDupOpaque
    reconnectMaxRetries := iscsi.reconnectMaxRetries }

/-- `reconnect` from `iscsi_create_context` to the `memcpy` over the context. Without a result, it
has returned -1. -/
def replaceContext (c : Conn) : Option Conn × Conn :=
  let iscsi := c.world.iscsi
  let (created, w) := iscsiCreateContext c.env iscsi.initiatorName c.world
  let c := { c with world := w }
  match created with
  | none => (none, c)
  | some tmp =>
    let tmp := copySettings iscsi tmp
    match c.world.olds with
    | _ :: _ => (some { c with world := { c.world with iscsi := tmp } }, c)
    | [] =>
      let (ok, c) := c.malloc
      if !ok then (none, c)
      else (some { c with world := { c.world with iscsi := tmp, olds := [iscsi] } }, c)

/-- The rest of `reconnect`. -/
def reconnectAttempt (c : Conn) : Int × Conn :=
  match c.replaceContext with
  | (none, c) => (-1, c)
  | (some c, _) => c.fullConnectAsync none c.world.iscsi.lun .reconnectCb 0

/-- What `reconnect` decides to do. -/
inductive Decision where
  /-- The reconnect is already deferred. -/
  | deferred
  /-- It is given up because the application wants no automatic reconnect. -/
  | noAuto
  /-- One is under way. -/
  | busy
  /-- It is too early. -/
  | wait
  /-- It is given up after too many attempts. -/
  | giveUp
  | attempt
  deriving DecidableEq, Repr

/-- The tests at the start of `reconnect`. -/
def decision (w : World) (force : Bool) : Decision :=
  if w.iscsi.reconnectDeferred then .deferred
  else if w.iscsi.noAutoReconnect then .noAuto
  else if !w.olds.isEmpty && !w.iscsi.pendingReconnect && !force then .busy
  else if w.now < w.iscsi.nextReconnect then .wait
  else if retriesExceeded w then .giveUp
  else .attempt

/-- `reconnect`. -/
def reconnect (c : Conn) (force : Bool) : Res (Int × Conn) :=
  match decision c.world force with
  | .deferred => .ok (-1, c)
  | .noAuto => do
    let c ← c.deferReconnect
    .ok (0, c)
  | .busy => .ok (0, c)
  | .wait => .ok (0, c.modify fun iscsi => { iscsi with pendingReconnect := true })
  | .giveUp => do
    let c ← c.deferReconnect
    .ok (-1, c)
  | .attempt => .ok c.reconnectAttempt

/-- `iscsi_set_noautoreconnect`. -/
def setNoautoreconnect (c : Conn) (state : Bool) : Res Conn :=
  let c := c.modify fun iscsi => { iscsi with noAutoReconnect := state }
  if !state && c.world.iscsi.reconnectDeferred then do
    let (_, c) ← (c.modify fun iscsi => { iscsi with reconnectDeferred := false }).reconnect false
    .ok c
  else .ok c

end Conn

end Libiscsi
