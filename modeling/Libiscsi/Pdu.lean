import Libiscsi.Types

/-!
# PDUs: allocation, fields, callbacks, release

The part of `lib/pdu.c` that works on one PDU: `iscsi_serial32_compare`, `iscsi_allocate_pdu`, the
`iscsi_pdu_set_*` functions, `iscsi_add_data` and `iscsi_tcp_free_pdu`, and what happens when
`pdu->callback` is called.
-/

namespace Libiscsi

/-! ## Serial numbers -/

/-- `iscsi_serial32_compare`. -/
def iscsiSerial32Compare (s1 s2 : UInt32) : Int :=
  if s1 = s2 then 0
  else if s1 < s2 ∧ s2 - s1 < 0x80000000 then -1
  else if s1 > s2 ∧ s1 - s2 < 0x80000000 then 1
  else if s1 > s2 ∧ s1 - s2 > 0x80000000 then -1
  else if s1 < s2 ∧ s2 - s1 > 0x80000000 then 1
  else -1

/-- Of two serial numbers that follow a third by less than 2³¹, the one that follows it more closely
is the smaller. -/
theorem iscsiSerial32Compare_lt {base s1 s2 : UInt32} (h1 : (s1 - base).toNat < 2 ^ 31)
    (h2 : (s2 - base).toNat < 2 ^ 31) :
    iscsiSerial32Compare s1 s2 < 0 ↔ (s1 - base).toNat < (s2 - base).toNat := by
  have := s1.toNat_lt
  have := s2.toNat_lt
  have := base.toNat_lt
  unfold iscsiSerial32Compare
  simp only [UInt32.toNat_sub, UInt32.lt_iff_toNat_lt, ← UInt32.toNat_inj, gt_iff_lt,
    UInt32.toNat_ofNat] at *
  split_ifs <;> omega

/-! ## Fields of a PDU -/

/-- `(size + 3) & 0xfffffffc`. -/
def pad4 (size : Nat) : Nat := (size + 3) &&& 0xfffffffc

/-- `ISCSI_HEADER_SIZE`. -/
def iscsiHeaderSize (headerDigest : DigestMode) : Nat :=
  iscsiRawHeaderSize + (if headerDigest = .none then 0 else iscsiDigestSize)

/-- `iscsi_get_pdu_data_size`. -/
def iscsiGetPduDataSize (hdr : List UInt8) : Nat := (scsiGetUint32 hdr 4 &&& 0x00ffffff).toNat

/-- `iscsi_get_pdu_padding_size`. -/
def iscsiGetPduPaddingSize (hdr : List UInt8) : Nat :=
  pad4 (iscsiGetPduDataSize hdr) - iscsiGetPduDataSize hdr

namespace Pdu

/-- A 32-bit field of the header is written. -/
def setField (p : Pdu) (i : Nat) (v : UInt32) : Pdu :=
  { p with outdata := scsiSetUint32 p.outdata i v }

/-- A byte of the header is written. -/
def setByte (p : Pdu) (i : Nat) (v : UInt8) : Pdu := { p with outdata := p.outdata.set i v }

/-- `iscsi_pdu_set_itt`. -/
def setItt (p : Pdu) (itt : UInt32) : Pdu := p.setField 16 itt

/-- `iscsi_pdu_set_ritt`. -/
def setRitt (p : Pdu) (ritt : UInt32) : Pdu := p.setField 20 ritt

/-- `iscsi_pdu_set_pduflags`. -/
def setPduflags (p : Pdu) (flags : UInt8) : Pdu := p.setByte 1 flags

/-- `iscsi_pdu_set_immediate`. -/
def setImmediate (p : Pdu) : Pdu := p.setByte 0 (byte p.outdata 0 ||| iscsiPduImmediate)

/-- `iscsi_pdu_set_ttt`. -/
def setTtt (p : Pdu) (ttt : UInt32) : Pdu := p.setField 20 ttt

/-- The writes of `iscsi_pdu_set_cmdsn` to the PDU. -/
def setCmdsn (p : Pdu) (cmdsn : UInt32) : Pdu := { p.setField 24 cmdsn with cmdsn }

/-- `iscsi_pdu_set_rcmdsn`. -/
def setRcmdsn (p : Pdu) (rcmdsn : UInt32) : Pdu := p.setField 32 rcmdsn

/-- `iscsi_pdu_set_datasn`. -/
def setDatasn (p : Pdu) (datasn : UInt32) : Pdu := p.setField 36 datasn

/-- `iscsi_pdu_set_expstatsn`. -/
def setExpstatsn (p : Pdu) (expstatsn : UInt32) : Pdu := p.setField 28 expstatsn

/-- `iscsi_pdu_set_bufferoffset`. -/
def setBufferoffset (p : Pdu) (bufferoffset : UInt32) : Pdu := p.setField 40 bufferoffset

/-- `iscsi_pdu_set_cdb`: sixteen bytes, the CDB and zeros after it. -/
def setCdb (p : Pdu) (cdb : List UInt8) : Pdu :=
  { p with outdata := copyBytes p.outdata 32 cdb 16 }

/-- `iscsi_pdu_set_lun`. -/
def setLun (p : Pdu) (lun : UInt32) : Pdu :=
  { p with outdata := scsiSetUint16 p.outdata 8 lun.toUInt16 }

/-- `iscsi_pdu_set_expxferlen`. -/
def setExpxferlen (p : Pdu) (expxferlen : UInt32) : Pdu :=
  { p.setField 20 expxferlen with expxferlen }

/-- `scsi_set_uint32(&pdu->outdata.data[4], len)`. -/
def setDataSegmentLength (p : Pdu) (len : Nat) : Pdu := p.setField 4 (UInt32.ofNat len)

section
variable (p : Pdu)

@[simp] theorem setField_callback (i : Nat) (v : UInt32) :
    (p.setField i v).callback = p.callback := rfl
@[simp] theorem setField_flags (i : Nat) (v : UInt32) : (p.setField i v).flags = p.flags := rfl
@[simp] theorem setField_itt (i : Nat) (v : UInt32) : (p.setField i v).itt = p.itt := rfl
@[simp] theorem setField_cmdsn (i : Nat) (v : UInt32) : (p.setField i v).cmdsn = p.cmdsn := rfl
@[simp] theorem setField_privateData (i : Nat) (v : UInt32) :
    (p.setField i v).privateData = p.privateData := rfl
@[simp] theorem setField_scsiCbdata (i : Nat) (v : UInt32) :
    (p.setField i v).scsiCbdata = p.scsiCbdata := rfl
@[simp] theorem setField_scsiTimeout (i : Nat) (v : UInt32) :
    (p.setField i v).scsiTimeout = p.scsiTimeout := rfl

/-- The first byte of the header is not changed by writing a field after it. -/
@[simp] theorem byte_setField {i j : Nat} (v : UInt32) (h : j < i ∨ i + 4 ≤ j) :
    byte (p.setField i v).outdata j = byte p.outdata j :=
  byte_scsiSetUint32 h

@[simp] theorem setCmdsn_cmdsn (v : UInt32) : (p.setCmdsn v).cmdsn = v := rfl
@[simp] theorem setCmdsn_callback (v : UInt32) : (p.setCmdsn v).callback = p.callback := rfl
@[simp] theorem setCmdsn_flags (v : UInt32) : (p.setCmdsn v).flags = p.flags := rfl
@[simp] theorem setCmdsn_itt (v : UInt32) : (p.setCmdsn v).itt = p.itt := rfl
@[simp] theorem setCmdsn_privateData (v : UInt32) :
    (p.setCmdsn v).privateData = p.privateData := rfl
@[simp] theorem setCmdsn_scsiCbdata (v : UInt32) :
    (p.setCmdsn v).scsiCbdata = p.scsiCbdata := rfl
@[simp] theorem setCmdsn_scsiTimeout (v : UInt32) :
    (p.setCmdsn v).scsiTimeout = p.scsiTimeout := rfl

@[simp] theorem byte_setCmdsn {j : Nat} (v : UInt32) (h : j < 24 ∨ 28 ≤ j) :
    byte (p.setCmdsn v).outdata j = byte p.outdata j :=
  byte_scsiSetUint32 h

@[simp] theorem setCmdsn_opcode (v : UInt32) : (p.setCmdsn v).opcode = p.opcode := by
  simp [opcode]

@[simp] theorem setCmdsn_immediate (v : UInt32) : (p.setCmdsn v).immediate = p.immediate := by
  simp [immediate]

end

end Pdu

/-! ## The heap of PDUs -/

namespace World

/-- `*pdu`; a PDU that was freed has no value. -/
def deref (w : World) (a : Addr) : Res Pdu :=
  match w.pdus a with
  | some p => .ok p
  | none => .error .useAfterFree

/-- `*pdu = p`. -/
def setPdu (w : World) (a : Addr) (p : Pdu) : World :=
  { w with pdus := Function.update w.pdus a (some p) }

/-- The context is changed. -/
def modify (w : World) (f : Context → Context) : World := { w with iscsi := f w.iscsi }

/-- A task is changed. -/
def modifyTask (w : World) (t : TaskPtr) (f : ScsiTask → ScsiTask) : World :=
  { w with tasks := Function.update w.tasks t (f (w.tasks t)) }

/-- The parts of the world that the library owns are changed. -/
def put (w : World) (iscsi : Context) (pdus : Addr → Option Pdu) (tasks : TaskPtr → ScsiTask)
    (trace : List Event) : World :=
  { w with iscsi, pdus, tasks, trace }

/-- An event is added to the trace. -/
def log (w : World) (e : Event) : World := { w with trace := w.trace ++ [e] }

/-- `f(iscsi->old_iscsi)`: the function sees the rest of the chain from the old context on. -/
def onOld (w : World) (f : World → Res World) : Res World :=
  match w.olds with
  | [] => .error .nullDeref
  | old :: olds => do
    let w' ← f { w with iscsi := old, olds }
    .ok { w' with iscsi := w.iscsi, olds := w'.iscsi :: w'.olds }

section
variable (w : World) (c c' : Context) (pdus pdus' : Addr → Option Pdu)
  (tasks tasks' : TaskPtr → ScsiTask) (trace trace' : List Event)

@[simp] theorem put_iscsi : (w.put c pdus tasks trace).iscsi = c := rfl
@[simp] theorem put_pdus : (w.put c pdus tasks trace).pdus = pdus := rfl
@[simp] theorem put_tasks : (w.put c pdus tasks trace).tasks = tasks := rfl
@[simp] theorem put_trace : (w.put c pdus tasks trace).trace = trace := rfl
@[simp] theorem put_olds : (w.put c pdus tasks trace).olds = w.olds := rfl
@[simp] theorem put_now : (w.put c pdus tasks trace).now = w.now := rfl
@[simp] theorem put_brk : (w.put c pdus tasks trace).brk = w.brk := rfl
@[simp] theorem put_mem : (w.put c pdus tasks trace).mem = w.mem := rfl
@[simp] theorem put_havePthread :
    (w.put c pdus tasks trace).havePthread = w.havePthread := rfl
@[simp] theorem put_allocs : (w.put c pdus tasks trace).allocs = w.allocs := rfl
@[simp] theorem put_put :
    (w.put c pdus tasks trace).put c' pdus' tasks' trace' = w.put c' pdus' tasks' trace' := rfl
@[simp] theorem put_self : w.put w.iscsi w.pdus w.tasks w.trace = w := rfl

/-- What was put is put over. -/
theorem put_of_eq_put {w w' : World} (h : w' = w.put c pdus tasks trace) :
    w'.put c' pdus' tasks' trace' = w.put c' pdus' tasks' trace' := by
  rw [h, put_put]

end

@[simp] theorem deref_eq_ok {w : World} {a : Addr} {p : Pdu} :
    w.deref a = .ok p ↔ w.pdus a = some p := by
  unfold deref
  cases w.pdus a <;> simp

section
variable (w : World) (a : Addr) (p : Pdu) (f : Context → Context) (t : TaskPtr)
  (g : ScsiTask → ScsiTask) (e : Event)

@[simp] theorem setPdu_iscsi : (w.setPdu a p).iscsi = w.iscsi := rfl
@[simp] theorem setPdu_pdus : (w.setPdu a p).pdus = Function.update w.pdus a (some p) := rfl
@[simp] theorem setPdu_tasks : (w.setPdu a p).tasks = w.tasks := rfl
@[simp] theorem setPdu_trace : (w.setPdu a p).trace = w.trace := rfl
@[simp] theorem setPdu_olds : (w.setPdu a p).olds = w.olds := rfl
@[simp] theorem setPdu_now : (w.setPdu a p).now = w.now := rfl
@[simp] theorem setPdu_brk : (w.setPdu a p).brk = w.brk := rfl
@[simp] theorem setPdu_mem : (w.setPdu a p).mem = w.mem := rfl
@[simp] theorem setPdu_havePthread : (w.setPdu a p).havePthread = w.havePthread := rfl
@[simp] theorem setPdu_allocs : (w.setPdu a p).allocs = w.allocs := rfl

@[simp] theorem modify_iscsi : (w.modify f).iscsi = f w.iscsi := rfl
@[simp] theorem modify_pdus : (w.modify f).pdus = w.pdus := rfl
@[simp] theorem modify_tasks : (w.modify f).tasks = w.tasks := rfl
@[simp] theorem modify_trace : (w.modify f).trace = w.trace := rfl
@[simp] theorem modify_olds : (w.modify f).olds = w.olds := rfl
@[simp] theorem modify_now : (w.modify f).now = w.now := rfl
@[simp] theorem modify_brk : (w.modify f).brk = w.brk := rfl
@[simp] theorem modify_mem : (w.modify f).mem = w.mem := rfl
@[simp] theorem modify_havePthread : (w.modify f).havePthread = w.havePthread := rfl
@[simp] theorem modify_allocs : (w.modify f).allocs = w.allocs := rfl

@[simp] theorem modifyTask_iscsi : (w.modifyTask t g).iscsi = w.iscsi := rfl
@[simp] theorem modifyTask_pdus : (w.modifyTask t g).pdus = w.pdus := rfl
@[simp] theorem modifyTask_tasks :
    (w.modifyTask t g).tasks = Function.update w.tasks t (g (w.tasks t)) := rfl
@[simp] theorem modifyTask_trace : (w.modifyTask t g).trace = w.trace := rfl
@[simp] theorem modifyTask_olds : (w.modifyTask t g).olds = w.olds := rfl
@[simp] theorem modifyTask_now : (w.modifyTask t g).now = w.now := rfl
@[simp] theorem modifyTask_brk : (w.modifyTask t g).brk = w.brk := rfl
@[simp] theorem modifyTask_mem : (w.modifyTask t g).mem = w.mem := rfl
@[simp] theorem modifyTask_havePthread : (w.modifyTask t g).havePthread = w.havePthread := rfl
@[simp] theorem modifyTask_allocs : (w.modifyTask t g).allocs = w.allocs := rfl

@[simp] theorem log_iscsi : (w.log e).iscsi = w.iscsi := rfl
@[simp] theorem log_pdus : (w.log e).pdus = w.pdus := rfl
@[simp] theorem log_tasks : (w.log e).tasks = w.tasks := rfl
@[simp] theorem log_trace : (w.log e).trace = w.trace ++ [e] := rfl
@[simp] theorem log_olds : (w.log e).olds = w.olds := rfl
@[simp] theorem log_now : (w.log e).now = w.now := rfl
@[simp] theorem log_brk : (w.log e).brk = w.brk := rfl
@[simp] theorem log_mem : (w.log e).mem = w.mem := rfl
@[simp] theorem log_havePthread : (w.log e).havePthread = w.havePthread := rfl
@[simp] theorem log_allocs : (w.log e).allocs = w.allocs := rfl

end

end World

/-! ## Lists of PDUs -/

/-- `ISCSI_LIST_REMOVE`: an item that is not in the list leaves it as it is; the loop that looks
for the item dereferences the head, so that the list must not be empty. -/
def listRemove (list : List Addr) (item : Addr) : Res (List Addr) :=
  match list with
  | [] => .error .nullDeref
  | _ :: _ => .ok (list.erase item)

theorem listRemove_eq_ok {l l' : List Addr} {a : Addr} :
    listRemove l a = .ok l' ↔ l ≠ [] ∧ l' = l.erase a := by
  cases l with
  | nil => simp [listRemove]
  | cons b l =>
    simp only [listRemove, Except.ok.injEq, ne_eq, reduceCtorEq, not_false_eq_true, true_and]
    exact eq_comm

/-- An item of the list can be removed. -/
theorem listRemove_of_mem {l : List Addr} {a : Addr} (h : a ∈ l) :
    listRemove l a = .ok (l.erase a) :=
  listRemove_eq_ok.2 ⟨List.ne_nil_of_mem h, rfl⟩

/-! ## Release -/

/-- The effect of `iscsi_tcp_free_pdu` on a PDU that is live. -/
def World.release (w : World) (a : Addr) : World :=
  w.put
    (w.iscsi.setOutqueueCurrent
      (if w.iscsi.outqueueCurrent = some a then none else w.iscsi.outqueueCurrent))
    (Function.update w.pdus a none) w.tasks (w.trace ++ [.free a])

/-- `iscsi_tcp_free_pdu`. -/
def iscsiFreePdu (w : World) (a : Addr) : Res World := do
  let _ ← w.deref a
  .ok (w.release a)

theorem iscsiFreePdu_eq_ok {w w' : World} {a : Addr} :
    iscsiFreePdu w a = .ok w' ↔ (w.pdus a).isSome ∧ w' = w.release a := by
  unfold iscsiFreePdu
  constructor
  · intro h
    obtain ⟨p, hp, h⟩ := Outcome.bind_eq_ok.1 h
    exact ⟨by simp [World.deref_eq_ok.1 hp], (Except.ok.inj h).symm⟩
  · rintro ⟨hp, rfl⟩
    obtain ⟨p, hp⟩ := Option.isSome_iff_exists.1 hp
    exact Outcome.bind_eq_ok.2 ⟨p, World.deref_eq_ok.2 hp, rfl⟩

/-! ## Allocation -/

/-- The outcome of the next allocation. -/
def World.malloc (w : World) : Bool × World :=
  match w.allocs with
  | [] => (true, w)
  | b :: rest => (b, { w with allocs := rest })

theorem World.malloc_eq (w : World) :
    w.malloc = (w.allocs.headD true, { w with allocs := w.allocs.tail }) := by
  rcases w with ⟨⟩
  rename_i allocs _ _ _ _ _ _ _
  cases allocs <;> rfl

/-- A PDU is put at the next address. -/
def World.newPdu (w : World) (p : Pdu) : World :=
  { w with pdus := Function.update w.pdus w.brk (some p), brk := w.brk + 1 }

/-- The PDU `iscsi_allocate_pdu` returns. -/
def Context.freshPdu (c : Context) (opcode responseOpcode : UInt8) (itt flags : UInt32) : Pdu :=
  let header := (List.replicate (iscsiHeaderSize c.headerDigest) 0).set 0 opcode
  let header :=
    if opcode = iscsiPduLoginRequest then copyBytes header 8 c.isid 6 else header
  { ({ outdata := header } : Pdu).setItt itt with
    responseOpcode, itt, flags, calculatedDataDigest := 0xffffffff }

/-- `iscsi_allocate_pdu`: the address of the new PDU, or NULL. -/
def iscsiAllocatePdu (w : World) (opcode responseOpcode : UInt8) (itt flags : UInt32) :
    Option Addr × World :=
  let (ok, w) := w.malloc
  if !ok then (none, w)
  else
    let a := w.brk
    let (ok, w) := w.malloc
    if !ok then (none, (w.newPdu {}).release a)
    else (some a, w.newPdu (w.iscsi.freshPdu opcode responseOpcode itt flags))

/-- `iscsi_itt_post_increment`. -/
def iscsiIttPostIncrement (w : World) : UInt32 × World :=
  let itt := w.iscsi.itt + 1
  (w.iscsi.itt, w.modify fun c => { c with itt := if itt = 0xffffffff then 0 else itt })

/-- `iscsi_pdu_set_cmdsn`: the CmdSN and the tag are remembered in the task as well. -/
def iscsiPduSetCmdsn (w : World) (a : Addr) (cmdsn : UInt32) : Res World := do
  let pdu ← w.deref a
  let w := w.setPdu a (pdu.setCmdsn cmdsn)
  match pdu.scsiCbdata.task with
  | none => .ok w
  | some t => .ok (w.modifyTask t fun task => { task with cmdsn, itt := pdu.itt })

/-- `iscsi_add_data` on `pdu->indata`, which is not aligned. The status, 0 or -1. -/
def iscsiAddIndata (w : World) (a : Addr) (bytes : List UInt8) : Res (Int × World) := do
  if bytes.length = 0 then .ok (-1, w)
  else
    let (ok, w) := w.malloc
    let pdu ← w.deref a
    if !ok then
      -- a failed realloc() returns NULL and that is what becomes of data->data
      .ok (-1, w.setPdu a { pdu with indata := [] })
    else .ok (0, w.setPdu a { pdu with indata := pdu.indata ++ bytes })

/-- `iscsi_pdu_add_data`. The status, 0 or -1. -/
def iscsiPduAddData (w : World) (a : Addr) (bytes : List UInt8) : Res (Int × World) := do
  if bytes.length = 0 then .ok (-1, w)
  else
    let (ok, w) := w.malloc
    let pdu ← w.deref a
    if !ok then .ok (-1, w.setPdu a { pdu with outdata := [] })
    else
      let pdu := { pdu with outdata := pdu.outdata ++ bytes }
      .ok (0, w.setPdu a (pdu.setDataSegmentLength
        (pdu.outdata.length - iscsiHeaderSize w.iscsi.headerDigest)))

/-! ## Callbacks -/

/-- The statuses `iscsi_scsi_response_cb` passes on; any other is reported as an error. -/
def scsiResponseStatus (status : Status) : Status :=
  if status ∈ [scsiStatusReservationConflict, scsiStatusCheckCondition, scsiStatusGood,
      scsiStatusBusy, scsiStatusConditionMet, scsiStatusTaskSetFull, scsiStatusAcaActive,
      scsiStatusTaskAborted, scsiStatusError, scsiStatusCancelled, scsiStatusTimeout] then status
  else scsiStatusError

/-- `iscsi_scsi_response_cb`: the status is stored in the task and the callback of the SCSI
command is called. -/
def iscsiScsiResponseCb (w : World) (status : Status) (cbdata : ScsiCbdata) : Res World :=
  match cbdata.task with
  | none => .error .nullDeref
  | some t =>
    let status := scsiResponseStatus status
    let w := w.modifyTask t fun task => { task with status }
    match cbdata.callback with
    | none => .ok w
    | some cb => .ok (w.log (.scsiCallback cb status t cbdata.privateData))

/-- A call through `pdu->callback`. The call is recorded; of the functions that are installed,
those that do no more than note the outcome are carried out. -/
def runCallback (w : World) (a : Addr) (pdu : Pdu) (cb : Callback) (status : Status) :
    Res World :=
  let w := w.log (.callback a cb status pdu.privateData)
  match cb with
  | .scsiResponseCb => iscsiScsiResponseCb w status pdu.scsiCbdata
  | .reconnectAfterLogout => .ok (w.modify fun c => { c with pendingReconnect := true })
  | _ => .ok w

/-- `if (pdu->callback) pdu->callback(iscsi, status, …, pdu->private_data)`. -/
def invokeCallback (w : World) (a : Addr) (status : Status) : Res World := do
  let pdu ← w.deref a
  match pdu.callback with
  | none => .ok w
  | some cb => runCallback w a pdu cb status

end Libiscsi
