import Libiscsi.Reconnect

/-!
# A full connect

The callbacks of `lib/connect.c` that take a connection from the open socket to the first answers
of the device: `iscsi_connect_cb`, `iscsi_login_cb`, `iscsi_testunitready_cb` and the two
`iscsi_inquiry_page_*_cb`. Each is called with the `struct connect_task` that
`iscsi_full_connect_async` allocated, and hands it on to the next one or calls the callback it
holds and frees it. A connect task that was freed has no value.
-/

namespace Libiscsi

def scsiSenseNotReady : UInt8 := 0x02
def scsiSenseUnitAttention : UInt8 := 0x06
def scsiSenseAscqSanitizeInProgress : UInt16 := 0x041b
def scsiSenseAscqMediumNotPresent : UInt16 := 0x3a00
def scsiSenseAscqMediumNotPresentTrayClosed : UInt16 := 0x3a01
def scsiSenseAscqMediumNotPresentTrayOpen : UInt16 := 0x3a02

/-- What a callback is called with: the status, the sense data of the task, and what
`scsi_datain_unmarshall` makes of its data, RMB and the device type of a standard INQUIRY or the
unit serial number of VPD page 0x80. -/
structure Reply where
  status : Status
  sense : ScsiSense := {}
  inquiry : Option (Bool × UInt8) := none
  usn : Option CStr := none
  deriving DecidableEq, Repr

namespace Conn

/-- `*ct`. -/
def derefTask (c : Conn) (ct : Addr) : Res ConnectTask :=
  match c.connectTasks ct with
  | some t => .ok t
  | none => .error .useAfterFree

/-- `ct->cb(iscsi, status, NULL, ct->private_data)`. -/
def callTask (c : Conn) (ct : Addr) (status : Status) : Res Conn := do
  let t ← c.derefTask ct
  .ok { c with calls := c.calls ++ [{ ct, cb := t.cb, status, privateData := t.privateData }] }

/-- `iscsi_free(iscsi, ct)`. -/
def freeTask (c : Conn) (ct : Addr) : Res Conn := do
  let _ ← c.derefTask ct
  .ok (c.setConnectTask ct none)

/-- The callback is called and the connect task is freed. -/
def complete (c : Conn) (ct : Addr) (status : Status) : Res Conn := do
  let c ← c.callTask ct status
  c.freeTask ct

/-- `iscsi_login_async`, `iscsi_testunitready_connect` or `iscsi_inquiry_task_connect`, with what
is done when it fails. -/
def startOrFail (c : Conn) (cb : Callback) (ct : Addr) : Res Conn :=
  let ok := c.starts.headD true
  let c := { c with starts := c.starts.tail }
  if ok then .ok { c with requests := c.requests ++ [{ cb, privateData := ct }] }
  else c.complete ct scsiStatusError

/-- `iscsi_disconnect`. -/
def disconnect (c : Conn) : Conn :=
  if c.world.iscsi.fd = -1 then c
  else c.modify fun iscsi => { iscsi with fd := -1, isConnected := false, isCorked := false }

/-- `iscsi_connect_cb`. -/
def connectCb (c : Conn) (ct : Addr) (status : Status) : Res Conn :=
  if status ≠ 0 then c.complete ct scsiStatusError
  else c.startOrFail .loginCb ct

/-- The call of `iscsi_connect_async` with which `iscsi_login_cb` follows a redirect. -/
def redirect (c : Conn) : Int × Conn :=
  let c := c.disconnect
  c.connectAsync c.world.iscsi.targetAddress .connectCb c.world.iscsi.connectData

/-- `iscsi_login_cb`. -/
def loginCb (c : Conn) (ct : Addr) (status : Status) : Res Conn :=
  if status = scsiStatusRedirect ∧ c.world.iscsi.targetAddress ≠ [] then
    let (r, c) := c.redirect
    if r ≠ 0 then c.freeTask ct else .ok c
  else if status ≠ 0 then c.complete ct scsiStatusError
  else do
    let t ← c.derefTask ct
    if c.world.iscsi.noUaOnReconnect || (t.lun != -1 && c.world.olds.isEmpty) then
      c.startOrFail .testunitreadyCb ct
    else if t.lun ≠ -1 then c.startOrFail .inquiryPage0x0Cb ct
    else c.complete ct scsiStatusGood

/-- The statuses that `iscsi_testunitready_cb` takes for a device that is there: no medium, a
reservation, or a sanitize in progress. -/
def toleratedStatus (reply : Reply) : Status :=
  if reply.status ≠ 0 ∧ reply.sense.key = scsiSenseNotReady ∧
      (reply.sense.ascq = scsiSenseAscqMediumNotPresent ∨
        reply.sense.ascq = scsiSenseAscqMediumNotPresentTrayClosed ∨
        reply.sense.ascq = scsiSenseAscqMediumNotPresentTrayOpen) then 0
  else if reply.status = scsiStatusReservationConflict then 0
  else if reply.status ≠ 0 ∧ reply.sense.key = scsiSenseNotReady ∧
      reply.sense.ascq = scsiSenseAscqSanitizeInProgress then 0
  else reply.status

/-- `iscsi_testunitready_cb`. -/
def testunitreadyCb (c : Conn) (ct : Addr) (reply : Reply) : Res Conn :=
  if reply.status ≠ 0 ∧ reply.sense.key = scsiSenseUnitAttention then do
    let t ← c.derefTask ct
    let c := c.setConnectTask ct (some { t with numUas := t.numUas + 1 })
    if t.numUas + 1 > 10 then c.complete ct scsiStatusError
    else c.startOrFail .testunitreadyCb ct
  else if toleratedStatus reply ≠ 0 then c.complete ct scsiStatusError
  else c.startOrFail .inquiryPage0x0Cb ct

/-- `iscsi_inquiry_page_0x0_cb`. -/
def inquiryPage0x0Cb (c : Conn) (ct : Addr) (reply : Reply) : Res Conn :=
  if reply.status ≠ 0 then c.complete ct scsiStatusError
  else
    match reply.inquiry with
    | none => c.complete ct scsiStatusError
    | some (rmb, deviceType) =>
      if !rmb && deviceType == 0 then c.startOrFail .inquiryPage0x80Cb ct
      else c.complete ct scsiStatusGood

/-- `iscsi_inquiry_page_0x80_cb`. -/
def inquiryPage0x80Cb (c : Conn) (ct : Addr) (reply : Reply) : Res Conn :=
  if reply.status ≠ 0 then c.complete ct scsiStatusError
  else
    match reply.usn with
    | none => c.complete ct scsiStatusError
    | some usn =>
      if c.world.iscsi.unitSerialNumber = [] then
        (c.modify fun iscsi =>
          { iscsi with unitSerialNumber := strncpy usn maxStringSize }).complete ct scsiStatusGood
      else if c.world.iscsi.unitSerialNumber.take maxStringSize ≠ usn.take maxStringSize then
        c.complete ct scsiStatusError
      else c.complete ct scsiStatusGood

/-- `iscsi->socket_status_cb(iscsi, status, NULL, iscsi->connect_data)` in `iscsi_tcp_service`,
when the socket is connected or has failed; the callback is forgotten afterwards. -/
def socketStatus (c : Conn) (status : Status) : Res Conn := do
  let c := if status = scsiStatusGood then
      c.modify fun iscsi => { iscsi with isConnected := true }
    else c
  let data := c.world.iscsi.connectData
  let c ← match c.world.iscsi.socketStatusCb with
    | none => .ok c
    | some .connectCb => c.connectCb data status
    | some cb => .ok { c with world := c.world.log (.socketStatus cb status data) }
  .ok (c.modify fun iscsi => { iscsi with socketStatusCb := none })

/-- A request is under way no more. -/
def without (c : Conn) (r : Request) : Conn := { c with requests := c.requests.erase r }

/-- A request is answered, or cancelled: the function it was made with is called. -/
def answer (c : Conn) (r : Request) (reply : Reply) : Res Conn :=
  let c := c.without r
  match r.cb with
  | .loginCb => c.loginCb r.privateData reply.status
  | .testunitreadyCb => c.testunitreadyCb r.privateData reply
  | .inquiryPage0x0Cb => c.inquiryPage0x0Cb r.privateData reply
  | .inquiryPage0x80Cb => c.inquiryPage0x80Cb r.privateData reply
  | _ => .ok c

end Conn

end Libiscsi
