import Libiscsi.Types
import Libiscsi.Lib.CString

/-!
# Discovery

`iscsi_process_text_reply` and `iscsi_free_discovery_addresses` (`lib/discovery.c`), and
`iscsi_discovery_cb` (`lib/sync.c`). A linked list is the list of its nodes, the head first. Of the
heap the counters `mallocs` and `frees` of the context are modelled, and the outcomes of the
allocations to come; the ones after the last succeed.
-/

namespace Libiscsi

open CString

/-- `struct iscsi_target_portal`. -/
structure IscsiTargetPortal where
  portal : Option CStr
  deriving DecidableEq, Repr

/-- `struct iscsi_discovery_address`. -/
structure IscsiDiscoveryAddress where
  targetName : CStr
  portals : List IscsiTargetPortal
  deriving DecidableEq, Repr

/-! ## Allocations -/

/-- What a context knows of the heap. -/
structure AllocState where
  allocs : List Bool := []
  mallocs : Nat := 0
  frees : Nat := 0
  deriving DecidableEq, Repr

namespace AllocState

/-- `iscsi_zmalloc` or `iscsi_strdup`. -/
def alloc (h : AllocState) : Bool × AllocState :=
  let h' := { h with allocs := h.allocs.tail }
  if h.allocs.headD true then (true, { h' with mallocs := h.mallocs + 1 }) else (false, h')

/-- `iscsi_free` of a block. -/
def free (h : AllocState) : AllocState := { h with frees := h.frees + 1 }

/-- `iscsi_free` of the portals of a target. -/
def freePortals (h : AllocState) : List IscsiTargetPortal → AllocState
  | [] => h
  | p :: portals => ((if p.portal.isSome then h.free else h).free).freePortals portals

/-- `iscsi_free_discovery_addresses`. -/
def freeDiscoveryAddresses (h : AllocState) : List IscsiDiscoveryAddress → AllocState
  | [] => h
  | a :: addresses => ((h.free.freePortals a.portals).free).freeDiscoveryAddresses addresses

end AllocState

/-! ## The reply -/

/-- A call of the callback, with the list of the targets. -/
structure DiscoveryCall where
  cb : Callback
  status : Status
  commandData : List IscsiDiscoveryAddress
  privateData : Nat
  deriving DecidableEq, Repr

/-- The callback of a PDU, if it has one. -/
def discoveryCalls (pdu : Pdu) (status : Status) (targets : List IscsiDiscoveryAddress) :
    List DiscoveryCall :=
  match pdu.callback with
  | none => []
  | some cb => [⟨cb, status, targets, pdu.privateData⟩]

/-- What `iscsi_process_text_reply` returns and has done. -/
structure TextOutcome where
  ret : Int
  calls : List DiscoveryCall
  heap : AllocState
  deriving DecidableEq, Repr

/-- An error exit: the callback is called, and the targets so far are released. -/
def textError (pdu : Pdu) (h : AllocState) (targets : List IscsiDiscoveryAddress) :
    TextOutcome where
  ret := -1
  calls := discoveryCalls pdu scsiStatusError []
  heap := h.freeDiscoveryAddresses targets

/-- The end of the data: the callback gets the targets, which are then released. -/
def textDone (pdu : Pdu) (h : AllocState) (targets : List IscsiDiscoveryAddress) : TextOutcome where
  ret := 0
  calls := discoveryCalls pdu scsiStatusGood targets
  heap := h.freeDiscoveryAddresses targets

/-- `"TargetName="`. -/
def targetNameKey : CStr := ofString "TargetName="

/-- `"TargetAddress="`. -/
def targetAddressKey : CStr := ofString "TargetAddress="

/-- A `TargetName=` string: a target without portals becomes the head of the list. -/
def addTargetName (pdu : Pdu) (h : AllocState) (targets : List IscsiDiscoveryAddress)
    (name : CStr) : Except TextOutcome (AllocState × List IscsiDiscoveryAddress) :=
  let (ok, h) := h.alloc
  if !ok then .error (textError pdu h targets)
  else
    let (ok, h) := h.alloc
    if !ok then .error (textError pdu h.free targets)
    else .ok (h, ⟨name, []⟩ :: targets)

/-- A `TargetAddress=` string: a portal becomes the head of the portals of the first target. -/
def addTargetAddress (pdu : Pdu) (h : AllocState) (targets : List IscsiDiscoveryAddress)
    (address : CStr) : Except TextOutcome (AllocState × List IscsiDiscoveryAddress) :=
  match targets with
  | [] => .error (textError pdu h [])
  | target :: rest =>
    let (ok, h) := h.alloc
    if !ok then .error (textError pdu h (target :: rest))
    else
      let (ok, h) := h.alloc
      if !ok then
        .error (textError pdu h ({ target with portals := ⟨none⟩ :: target.portals } :: rest))
      else .ok (h, { target with portals := ⟨some address⟩ :: target.portals } :: rest)

/-- One string of the data. -/
def textString (pdu : Pdu) (h : AllocState) (targets : List IscsiDiscoveryAddress) (s : CStr) :
    Except TextOutcome (AllocState × List IscsiDiscoveryAddress) :=
  if targetNameKey.isPrefixOf s then addTargetName pdu h targets (s.drop 11)
  else if targetAddressKey.isPrefixOf s then addTargetAddress pdu h targets (s.drop 14)
  else .error (textError pdu h targets)

/-- The loop of `iscsi_process_text_reply`. The number bounds the turns: each takes at least one
byte of the data. -/
def textLoop (pdu : Pdu) :
    Nat → AllocState → List IscsiDiscoveryAddress → List UInt8 → Res TextOutcome
  | 0, _, _, _ => .error .diverges
  | fuel + 1, h, targets, data =>
    if data = [] then .ok (textDone pdu h targets)
    else
      let s := first data
      if s.length = data.length then .ok (textError pdu h targets)
      else if s = [] then .ok (textDone pdu h targets)
      else
        match textString pdu h targets s with
        | .error o => .ok o
        | .ok (h, targets) => textLoop pdu fuel h targets (data.drop (s.length + 1))

/-- `iscsi_process_text_reply`. -/
def iscsiProcessTextReply (pdu : Pdu) (h : AllocState) (inPdu : InPdu) : Res TextOutcome :=
  if inPdu.flags ≠ iscsiPduTextFinal then
    .ok { ret := -1, calls := discoveryCalls pdu scsiStatusError [], heap := h }
  else textLoop pdu (inPdu.payload.length + 1) h [] inPdu.payload

/-! ## The synchronous call -/

/-- `iscsi_discovery_cb`: the copy of the targets, which become its nodes one by one. -/
def iscsiDiscoveryCb (commandData : List IscsiDiscoveryAddress) : List IscsiDiscoveryAddress :=
  commandData.foldl (fun dahead da =>
    ⟨da.targetName, da.portals.foldl (fun portals po => po :: portals) []⟩ :: dahead) []

end Libiscsi
