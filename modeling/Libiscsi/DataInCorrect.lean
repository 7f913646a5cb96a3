import Libiscsi.DataInRead

/-!
# The two ways Data-In reach the application

A READ is run twice, with vectors for its data and without, on the same PDUs. The runs agree
exactly when no Data-In is empty and the status comes in the last Data-In or in a response that
hands over the data, or there are no data at all (`dataIn_agree_iff`). An empty data segment is
nothing to the first run, but `iscsi_add_data` refuses it in the second, which frees the PDU of the
command without a callback.
-/

namespace Libiscsi

/-! ## Calls of the application -/

/-- How often the callback of the command of a task was called. -/
def callbacks (t : TaskPtr) (trace : List Event) : Nat :=
  trace.countP fun
    | .scsiCallback _ _ t' _ => t' == t
    | _ => false

/-- A command that waits for its response. -/
structure Waits (w : World) (a : Addr) (p : Pdu) (t : TaskPtr) : Prop where
  pdu : w.pdus a = some p
  task : p.scsiCbdata.task = some t
  callback : p.callback = some .scsiResponseCb
  userCallback : p.scsiCbdata.callback.isSome
  response : p.responseOpcode = iscsiPduScsiResponse
  found : findItt w p.itt w.iscsi.waitpdu = .ok (some a)
  allocs : w.allocs = []

/-- The command has been answered: its PDU is freed, the task is this one, and its callback was
called once. -/
structure Answered (w w' : World) (a : Addr) (t : TaskPtr) (task : ScsiTask) : Prop where
  freed : w'.pdus a = none
  task : w'.tasks t = task
  mem : w'.mem = w.mem
  once : callbacks t w'.trace = callbacks t w.trace + 1

section
variable {w : World} {a : Addr} {p : Pdu} {t : TaskPtr}

/-- Something is waited for. -/
theorem Waits.nonempty (h : Waits w a p t) : w.iscsi.waitpdu ≠ [] := by
  intro hnil
  have := h.found
  rw [hnil] at this
  cases this

/-- A PDU that waits is dropped. -/
theorem dropWaiting_eq {W : World} (hne : W.iscsi.waitpdu ≠ []) (hp : W.pdus a = some p) :
    dropWaiting W a = .ok ((W.modify (·.setWaitpdu (W.iscsi.waitpdu.erase a))).release a) := by
  unfold dropWaiting
  rw [listRemove_eq_ok.2 ⟨hne, rfl⟩, Outcome.ok_bind, iscsiFreePdu_eq_ok]
  exact ⟨by rw [World.modify_pdus, hp]; rfl, rfl⟩

/-- A callback and the release after it, where the task and the PDU were changed before. -/
theorem answer_drop {W : World} {q : Pdu} (s : Status) (r : Int) (hq : W.pdus a = some q)
    (hcb : q.callback = some .scsiResponseCb) (ht : q.scsiCbdata.task = some t)
    (hu : q.scsiCbdata.callback.isSome) (hne : W.iscsi.waitpdu ≠ []) :
    ∃ W₁ W₂, answer W a s r = .ok (r, W₁) ∧ dropWaiting W₁ a = .ok W₂ ∧
      Answered W W₂ a t { W.tasks t with status := scsiResponseStatus s } := by
  obtain ⟨cb, hcb'⟩ := Option.isSome_iff_exists.1 hu
  set W₁ := ((W.log (.callback a .scsiResponseCb s q.privateData)).modifyTask t fun task =>
    { task with status := scsiResponseStatus s }).log
      (.scsiCallback cb (scsiResponseStatus s) t q.scsiCbdata.privateData) with hW₁
  have hinv : invokeCallback W a s = .ok W₁ := by
    unfold invokeCallback
    rw [World.deref_eq_ok.2 hq, Outcome.ok_bind, hcb]
    simp [runCallback, iscsiScsiResponseCb, ht, hcb', hW₁]
  have hpdus : W₁.pdus a = some q := hq
  refine ⟨W₁, _, by rw [answer, hinv, Outcome.ok_bind], dropWaiting_eq hne hpdus, ?_, ?_, rfl, ?_⟩
  · simp [World.release]
  · simp [World.release, hW₁]
  · simp [World.release, callbacks, hW₁]

/-- `iscsi_scsi_response_cb` knows the statuses that a response passes on. -/
theorem passedStatus {s : Status} (h : s ∈ passedStatuses) : scsiResponseStatus s = s := by
  simp only [passedStatuses, List.mem_cons, List.not_mem_nil, or_false] at h
  rcases h with h | h | h | h | h <;>
  · rw [h]
    rfl

/-! ## Processing a PDU -/

variable (h : Waits w a p t) {x : InPdu} (hitt : x.itt = p.itt)

include h hitt

/-- A Data-In that asks for an acknowledgement is an error. -/
theorem dataIn_refused (hop : x.opcode = iscsiPduDataIn)
    (hack : x.flags &&& iscsiPduDataAckRequested ≠ 0) :
    ∃ r w', processScsiPdu w x = .ok (r, w') ∧
      Answered w w' a t { w.tasks t with status := scsiStatusError } := by
  obtain ⟨w₁, w₂, hans, hdrop, hdone⟩ :=
    answer_drop scsiStatusError (-1) h.pdu h.callback h.task h.userCallback h.nonempty
  refine ⟨-1, w₂, ?_, hdone⟩
  unfold processScsiPdu iscsiProcessScsiDataIn
  rw [hitt, h.found, Outcome.ok_bind]
  simp only [World.deref_eq_ok.2 h.pdu, Outcome.ok_bind]
  rw [if_pos ⟨hop, h.response⟩, if_pos hack, hans]
  simp [hdrop]

/-- The task of a command that a Data-In ended. -/
def dataInTask (x : InPdu) (indata : List UInt8) (task : ScsiTask) : ScsiTask :=
  { task.withResidual x with
    datain := indata, status := scsiResponseStatus (byte x.hdr 3).toNat }

/-- A Data-In whose data cannot be collected: the PDU is dropped without a callback. -/
theorem dataIn_fails (hop : x.opcode = iscsiPduDataIn)
    (hack : x.flags &&& iscsiPduDataAckRequested = 0)
    (hadd : collectData w a t x = .ok (-1, w)) :
    ∃ w', processScsiPdu w x = .ok (-1, w') ∧ w'.pdus a = none ∧
      callbacks t w'.trace = callbacks t w.trace := by
  refine ⟨(w.modify (·.setWaitpdu (w.iscsi.waitpdu.erase a))).release a, ?_, ?_, ?_⟩
  · unfold processScsiPdu iscsiProcessScsiDataIn
    rw [hitt, h.found, Outcome.ok_bind]
    simp only [World.deref_eq_ok.2 h.pdu, Outcome.ok_bind]
    rw [if_pos ⟨hop, h.response⟩, if_neg (by simpa using hack)]
    simp only [h.task]
    rw [hadd]
    simp [dropWaiting_eq h.nonempty h.pdu]
  · simp [World.release]
  · simp [World.release, callbacks]

/-- A Data-In that does not end the command: its data have been collected. -/
theorem dataIn_continues {w₁ : World} (hop : x.opcode = iscsiPduDataIn)
    (hack : x.flags &&& iscsiPduDataAckRequested = 0)
    (hadd : collectData w a t x = .ok (0, w₁)) (hends : x.endsCommand = false) :
    processScsiPdu w x = .ok (0, w₁) := by
  unfold processScsiPdu iscsiProcessScsiDataIn
  rw [hitt, h.found, Outcome.ok_bind]
  simp only [World.deref_eq_ok.2 h.pdu, Outcome.ok_bind]
  rw [if_pos ⟨hop, h.response⟩, if_neg (by simpa using hack)]
  simp only [h.task, hadd, Outcome.ok_bind, hends]
  simp

/-- A Data-In that ends the command: what has been collected goes to the task. -/
theorem dataIn_ends {w₁ : World} {p₁ : Pdu} (hop : x.opcode = iscsiPduDataIn)
    (hack : x.flags &&& iscsiPduDataAckRequested = 0)
    (hadd : collectData w a t x = .ok (0, w₁)) (h₁ : Waits w₁ a p₁ t)
    (hends : x.endsCommand = true) :
    ∃ r w', processScsiPdu w x = .ok (r, w') ∧
      Answered w₁ w' a t (dataInTask x p₁.indata (w₁.tasks t)) := by
  set W := takeIndata (w₁.modifyTask t (·.withResidual x)) a p₁ t with hW
  obtain ⟨w₂, w₃, hans, hdrop, hdone⟩ := answer_drop (W := W) (a := a)
    (q := { p₁ with indata := [] }) (byte x.hdr 3).toNat 0 (by simp [hW, takeIndata]) h₁.callback
    h₁.task h₁.userCallback h₁.nonempty
  refine ⟨0, w₃, ?_, hdone.freed, ?_, hdone.mem, hdone.once⟩
  · unfold processScsiPdu iscsiProcessScsiDataIn
    rw [hitt, h.found, Outcome.ok_bind]
    simp only [World.deref_eq_ok.2 h.pdu, Outcome.ok_bind]
    rw [if_pos ⟨hop, h.response⟩, if_neg (by simpa using hack)]
    simp only [h.task, hadd, Outcome.ok_bind, hends, World.deref_eq_ok.2 h₁.pdu]
    simp [← hW, hans, hdrop]
  · rw [hdone.task, hW]
    simp [takeIndata, dataInTask]

/-- The response hands over the data that were collected. -/
def InPdu.handsOver (x : InPdu) : Prop :=
  x.flags &&& iscsiPduDataFinal ≠ 0 ∧ x.flags &&& iscsiPduDataAckRequested = 0 ∧
    ¬(x.flags &&& dataResidualFlags ≠ 0 ∧ byte x.hdr 2 ≠ 0) ∧
    ((byte x.hdr 3).toNat = scsiStatusGood ∨ (byte x.hdr 3).toNat = scsiStatusConditionMet)

instance (x : InPdu) : Decidable x.handsOver :=
  inferInstanceAs (Decidable (_ ∧ _ ∧ ¬(_ ∧ _) ∧ (_ ∨ _)))

/-- The task of a command that a response ended, where these data were collected for it. -/
def replyTask (x : InPdu) (indata : List UInt8) (task : ScsiTask) : ScsiTask :=
  if x.flags &&& iscsiPduDataFinal = 0 then { task with status := scsiStatusError }
  else if x.flags &&& iscsiPduDataAckRequested ≠ 0 then { task with status := scsiStatusError }
  else if x.flags &&& dataResidualFlags ≠ 0 ∧ byte x.hdr 2 ≠ 0 then
    { task with residualStatus := .noResidual, residual := 0, status := scsiStatusError }
  else
    let task := task.withResidual x
    let status := (byte x.hdr 3).toNat
    if status = scsiStatusGood ∨ status = scsiStatusConditionMet then
      { task with datain := indata, status := scsiStatusGood }
    else if status = scsiStatusCheckCondition then
      { task with
        datain := x.payload
        sense := scsiParseSenseData task.sense (x.payload.drop 2)
        status := scsiStatusCheckCondition }
    else if status ∈ passedStatuses then { task with status }
    else { task with status := scsiStatusError }

/-- A response ends the command, whatever it says. -/
theorem reply_ends (hop : x.opcode = iscsiPduScsiResponse) :
    ∃ r w', processScsiPdu w x = .ok (r, w') ∧
      Answered w w' a t (replyTask x p.indata (w.tasks t)) := by
  suffices hreply : ∃ r w₁ w', iscsiProcessScsiReply w a x = .ok (r, w₁) ∧
      dropWaiting w₁ a = .ok w' ∧ Answered w w' a t (replyTask x p.indata (w.tasks t)) by
    obtain ⟨r, w₁, w', hr, hdrop, hdone⟩ := hreply
    refine ⟨r, w', ?_, hdone⟩
    unfold processScsiPdu
    rw [hitt, h.found, Outcome.ok_bind]
    simp only [World.deref_eq_ok.2 h.pdu, Outcome.ok_bind]
    rw [if_neg (by rw [hop]; rintro ⟨h, -⟩; revert h; decide), if_pos ⟨hop, h.response⟩, hr,
      Outcome.ok_bind]
    simp only [hdrop, Outcome.ok_bind]
  -- every branch changes the task and the PDU, and answers
  have hbranch : ∀ (W : World) (q : Pdu) (s : Status) (r : Int) (task : ScsiTask),
      W.pdus a = some q → q.callback = p.callback → q.scsiCbdata = p.scsiCbdata →
      W.iscsi = w.iscsi → W.mem = w.mem → W.trace = w.trace →
      { W.tasks t with status := scsiResponseStatus s } = task →
      ∃ r' w₁ w', answer W a s r = .ok (r', w₁) ∧ dropWaiting w₁ a = .ok w' ∧
        Answered w w' a t task := by
    intro W q s r task hq hcb hsc hctx hmem htrace htask
    obtain ⟨w₁, w₂, hans, hdrop, hdone⟩ := answer_drop s r hq (by rw [hcb]; exact h.callback)
      (by rw [hsc]; exact h.task) (by rw [hsc]; exact h.userCallback)
      (by rw [hctx]; exact h.nonempty)
    exact ⟨r, w₁, w₂, hans, hdrop, hdone.freed, hdone.task.trans htask, hdone.mem.trans hmem,
      by rw [hdone.once, htrace]⟩
  unfold iscsiProcessScsiReply
  simp only [World.deref_eq_ok.2 h.pdu, Outcome.ok_bind, h.task]
  unfold replyTask
  split_ifs with hfinal hack hres
  · exact hbranch w p _ _ _ h.pdu rfl rfl rfl rfl rfl rfl
  · exact hbranch w p _ _ _ h.pdu rfl rfl rfl rfl rfl rfl
  · exact hbranch _ p _ _ _ h.pdu rfl rfl rfl rfl rfl (by simp; rfl)
  set W := w.modifyTask t (·.withResidual x) with hW
  have hmalloc : W.malloc = (true, W) := by
    rw [World.malloc, hW, World.modifyTask_allocs, h.allocs]
  have htask : W.tasks t = (w.tasks t).withResidual x := by simp [hW]
  unfold replyStatus
  simp only [hmalloc]
  by_cases hgood : (byte x.hdr 3).toNat = scsiStatusGood ∨
      (byte x.hdr 3).toNat = scsiStatusConditionMet
  · rw [if_pos hgood, if_pos hgood]
    exact hbranch _ { p with indata := [] } _ _ _ (by simp [takeIndata]) rfl rfl rfl rfl rfl
      (by simp [takeIndata, htask]; rfl)
  rw [if_neg hgood, if_neg hgood]
  by_cases hcheck : (byte x.hdr 3).toNat = scsiStatusCheckCondition
  · rw [if_pos hcheck, if_pos hcheck]
    exact hbranch _ p _ _ _ h.pdu rfl rfl rfl rfl rfl (by simp [htask]; rfl)
  rw [if_neg hcheck, if_neg hcheck]
  by_cases hpass : (byte x.hdr 3).toNat ∈ passedStatuses
  · rw [if_pos hpass, if_pos hpass]
    exact hbranch W p _ _ _ h.pdu rfl rfl rfl rfl rfl (by rw [htask, passedStatus hpass])
  · rw [if_neg hpass, if_neg hpass]
    exact hbranch W p _ _ _ h.pdu rfl rfl rfl rfl rfl (by rw [htask]; rfl)

end

/-! ## The PDUs of a command -/

namespace Inbound

/-- The header as the functions that process the PDU see it. -/
def head (x : Inbound) : InPdu := { hdr := x.hdr }

/-- The data of the PDU, without the padding. -/
def data (x : Inbound) : List UInt8 := x.stream.take (iscsiGetPduDataSize x.hdr)

/-- The PDU that was read into the buffer. -/
def whole (x : Inbound) : InPdu :=
  { hdr := x.hdr, dataPos := x.stream.length, data := some x.stream }

theorem whole_payload (x : Inbound) : x.whole.payload = x.stream := by
  rw [whole, InPdu.payload, Option.getD_some, List.take_length]

/-- The PDU is for the command, and has the data segment that its header says. -/
structure Ok (x : Inbound) (itt maxSegment : UInt32) : Prop where
  itt : x.head.itt = itt
  size : x.stream.length = iscsiGetPduDataSize x.hdr + iscsiGetPduPaddingSize x.hdr
  max : iscsiGetPduDataSize x.hdr ≤ maxSegment.toNat

/-- The PDU asks for an acknowledgement, which ends the command with an error. -/
def Refused (x : Inbound) : Prop := x.head.flags &&& iscsiPduDataAckRequested ≠ 0

end Inbound

/-- The PDUs of a READ: Data-In in the order of their data, without gaps, from a position on, and
within the length of the transfer; and responses. -/
def InOrder (itt maxSegment : UInt32) (limit : Nat) : Nat → List Inbound → Prop
  | _, [] => True
  | pos, x :: xs => x.Ok itt maxSegment ∧
    (x.head.opcode = iscsiPduDataIn ∧ (scsiGetUint32 x.hdr 40).toNat = pos ∧
        pos + iscsiGetPduDataSize x.hdr ≤ limit ∧
        InOrder itt maxSegment limit (pos + iscsiGetPduDataSize x.hdr) xs ∨
      x.head.opcode = iscsiPduScsiResponse ∧ InOrder itt maxSegment limit pos xs)

/-- The data that the target sends up to the end of the command. -/
def sentData : List Inbound → List UInt8
  | [] => []
  | x :: xs =>
    if x.head.opcode = iscsiPduScsiResponse then []
    else if x.head.flags &&& iscsiPduDataAckRequested ≠ 0 ∨ x.head.endsCommand then x.data
    else x.data ++ sentData xs

/-- The command is answered by PDUs for which both runs do the same: no Data-In is empty, and the
last one has the status, or a response hands the data over. What ends the command in another way
does so only where there are no data; `empty` says that there have been none. -/
def Handled : Prop → List Inbound → Prop
  | _, [] => False
  | empty, x :: xs =>
    if x.head.opcode = iscsiPduScsiResponse then x.head.handsOver ∨ empty
    else if x.head.flags &&& iscsiPduDataAckRequested ≠ 0 then empty ∧ x.data = []
    else x.data ≠ [] ∧ (x.head.endsCommand ∨ Handled False xs)

/-- A READ that waits for its data, with what its application can give it as vectors: they do not
overlap, and hold less than 2³² bytes. -/
structure ReadTask (w : World) (a : Addr) (p : Pdu) (t : TaskPtr) (iov : List ScsiIovec) : Prop
    extends Waits w a p t where
  indata : p.indata = []
  datain : (w.tasks t).datain = []
  apart : (iovecAddrs iov).Nodup
  size : iovecLength iov < 2 ^ 32

/-- The runs with vectors and without agree on the task, each has called the application once, and
the bytes sent are in the vectors of the one and in `datain` of the other, where they come before
what both have there. -/
structure Agree (w : World) (t : TaskPtr) (iov : List ScsiIovec) (sent : List UInt8)
    (u r : World) : Prop where
  status : (u.tasks t).status = (r.tasks t).status
  residualStatus : (u.tasks t).residualStatus = (r.tasks t).residualStatus
  residual : (u.tasks t).residual = (r.tasks t).residual
  vectors : (iovecBytes u.mem iov).take sent.length = sent
  datain : (r.tasks t).datain = sent ++ (u.tasks t).datain
  onceVectors : callbacks t u.trace = callbacks t w.trace + 1
  onceBuffer : callbacks t r.trace = callbacks t w.trace + 1

/-! ## The two runs -/

/-- The run without vectors, which has collected these data. -/
def World.collecting (w : World) (a : Addr) (p : Pdu) (t : TaskPtr) (data : List UInt8) : World :=
  (w.withVectors t w.mem {}).setPdu a { p with indata := data }

section
variable {w : World} {a : Addr} {p : Pdu} {t : TaskPtr} {iov : List ScsiIovec}

theorem Waits.withVectors (h : Waits w a p t) (mem : Nat → UInt8) (v : ScsiIovector) :
    Waits (w.withVectors t mem v) a p t := by
  have hfound : findItt (w.withVectors t mem v) p.itt (w.withVectors t mem v).iscsi.waitpdu =
      findItt w p.itt w.iscsi.waitpdu := findItt_congr _ _ fun _ => rfl
  exact ⟨h.pdu, h.task, h.callback, h.userCallback, h.response, hfound.trans h.found, h.allocs⟩

theorem Waits.collecting (h : Waits w a p t) (data : List UInt8) :
    Waits (w.collecting a p t data) a { p with indata := data } t where
  pdu := Function.update_self ..
  task := h.task
  callback := h.callback
  userCallback := h.userCallback
  response := h.response
  found := by
    refine (findItt_congr _ _ fun b => ?_).trans h.found
    by_cases hb : b = a
    · subst hb
      simp [World.collecting, h.pdu]
    · simp [World.collecting, World.withVectors, hb]
  allocs := h.allocs

/-- The task has vectors for the data of a Data-In. -/
theorem iovectorIn_vectors (h : Waits w a p t) {q : InPdu} {mem : Nat → UInt8}
    {v : ScsiIovector} (hop : q.opcode = iscsiPduDataIn) (hitt : q.itt = p.itt)
    (hv : v.iov = some iov) :
    iscsiGetScsiTaskIovectorIn (w.withVectors t mem v) q = .ok (some t) := by
  have hw := h.withVectors mem v
  unfold iscsiGetScsiTaskIovectorIn
  rw [if_neg (by simpa using hop), hitt, hw.found, Outcome.ok_bind]
  simp only [World.deref_eq_ok.2 hw.pdu, Outcome.ok_bind, h.task]
  simp [World.withVectors, hv]

/-- The task has no vectors. -/
theorem iovectorIn_collecting (h : Waits w a p t) {q : InPdu} (data : List UInt8)
    (hitt : q.itt = p.itt) :
    iscsiGetScsiTaskIovectorIn (w.collecting a p t data) q = .ok none := by
  have hw := h.collecting data
  have hfound : findItt (w.collecting a p t data) p.itt
      (w.collecting a p t data).iscsi.waitpdu = .ok (some a) := hw.found
  unfold iscsiGetScsiTaskIovectorIn
  by_cases hop : q.opcode = iscsiPduDataIn
  · rw [if_neg (by simpa using hop), hitt, hfound, Outcome.ok_bind]
    simp only [World.deref_eq_ok.2 hw.pdu, Outcome.ok_bind, h.task]
    simp [World.collecting, World.withVectors]
  · rw [if_pos hop]

/-- A PDU that is read into the buffer. -/
theorem receivePdu_buffer {W : World} {x : Inbound} {itt : UInt32}
    (hx : x.Ok itt W.iscsi.initiatorMaxRecvDataSegmentLength) (hallocs : W.allocs = [])
    (hnone : ∀ q : InPdu, q.hdr = x.hdr → iscsiGetScsiTaskIovectorIn W q = .ok none) :
    ∃ q, receivePdu W x = processScsiPdu W q ∧ q.hdr = x.hdr ∧ q.data.getD [] = x.stream ∧
      q.payload = x.stream := by
  obtain ⟨q, hread, hhdr, hpos, hdata⟩ := readData_buffer hallocs hnone (x.stream.length + 1)
    { hdr := x.hdr } x.stream x.cuts rfl (by simpa using hx.size) (Nat.lt_succ_self _)
  have hdata : q.data.getD [] = x.stream := by simpa using hdata
  refine ⟨q, ?_, hhdr, hdata, ?_⟩
  · unfold receivePdu
    rw [if_neg (by have := hx.max; omega), hread, Outcome.ok_bind]
  · rw [InPdu.payload, hdata, hpos, ← hx.size, List.take_length]

/-- A Data-In that is read into the vectors. -/
theorem receivePdu_vectors (h : ReadTask w a p t iov) {x : Inbound} {mem : Nat → UInt8}
    {v : ScsiIovector} {data : List UInt8}
    (hx : x.Ok p.itt w.iscsi.initiatorMaxRecvDataSegmentLength)
    (hop : x.head.opcode = iscsiPduDataIn)
    (hpos : (scsiGetUint32 x.hdr 40).toNat = data.length)
    (hfit : data.length + iscsiGetPduDataSize x.hdr ≤ iovecLength iov) (hc : v.CursorOk)
    (hiov : v.iov = some iov) (hcur : v.offset ≤ data.length)
    (hdata : (iovecBytes mem iov).take data.length = data) :
    ∃ mem' v' q, receivePdu (w.withVectors t mem v) x =
        processScsiPdu (w.withVectors t mem' v') q ∧ q.hdr = x.hdr ∧ v'.CursorOk ∧
      v'.iov = some iov ∧ v'.offset ≤ data.length + iscsiGetPduDataSize x.hdr ∧
      (iovecBytes mem' iov).take (data.length + iscsiGetPduDataSize x.hdr) = data ++ x.data := by
  obtain ⟨mem', v', q, hread, hhdr, hc', hiov', hcur', hbytes⟩ :=
    readData_vectors (w := w) (t := t) h.apart h.size
      (fun q mem v hq hv => iovectorIn_vectors h.toWaits
        (by rw [← hop, InPdu.opcode, hq]; rfl) (by rw [← hx.itt, InPdu.itt, hq]; rfl) hv)
      hpos hfit (x.stream.length + 1) mem v { hdr := x.hdr } x.stream data x.cuts rfl
      (by simpa using hx.size) (Nat.lt_succ_self _) hc hiov (by simpa using hcur)
      (by simpa using hdata)
  refine ⟨mem', v', q, ?_, hhdr, hc', hiov', hcur', by simpa [Inbound.data] using hbytes⟩
  unfold receivePdu
  have hmax : ¬ iscsiGetPduDataSize x.hdr >
      (w.withVectors t mem v).iscsi.initiatorMaxRecvDataSegmentLength.toNat := by
    have := hx.max
    change ¬ _ > w.iscsi.initiatorMaxRecvDataSegmentLength.toNat
    omega
  rw [if_neg hmax, hread, Outcome.ok_bind]

/-- A response says the same however it was read. -/
theorem replyTask_congr {q q' : InPdu} (hhdr : q.hdr = q'.hdr) (hpay : q.payload = q'.payload)
    (indata : List UInt8) (task : ScsiTask) :
    replyTask q indata task = replyTask q' indata task := by
  unfold replyTask ScsiTask.withResidual InPdu.flags
  simp only [hhdr, hpay]

/-- The length of the data is that in the header. -/
theorem Inbound.Ok.length {x : Inbound} {itt maxSegment : UInt32} (hx : x.Ok itt maxSegment) :
    x.data.length = iscsiGetPduDataSize x.hdr := by
  have := hx.size
  rw [Inbound.data, List.length_take]
  omega

/-- Two runs that have been answered agree if they have handed over the same. -/
theorem agree_answered {W W' u r : World} {sent : List UInt8} {task task' : ScsiTask}
    (hu : Answered W u a t task) (hr : Answered W' r a t task')
    (hW : callbacks t W.trace = callbacks t w.trace)
    (hW' : callbacks t W'.trace = callbacks t w.trace)
    (hbytes : (iovecBytes W.mem iov).take sent.length = sent)
    (hstatus : task.status = task'.status) (hres : task.residualStatus = task'.residualStatus)
    (hresidual : task.residual = task'.residual) :
    Agree w t iov sent u r ↔ task'.datain = sent ++ task.datain := by
  constructor
  · intro h
    have := h.datain
    rwa [hu.task, hr.task] at this
  · intro h
    refine ⟨?_, ?_, ?_, by rw [hu.mem]; exact hbytes, by rw [hu.task, hr.task]; exact h,
      by rw [hu.once, hW], by rw [hr.once, hW']⟩ <;>
    · rw [hu.task, hr.task]
      assumption

/-! ## The runs side by side -/

theorem withResidual_frame (task task' : ScsiTask) (x : InPdu) :
    (task.withResidual x).residualStatus = (task'.withResidual x).residualStatus ∧
      (task.withResidual x).residual = (task'.withResidual x).residual ∧
      (task.withResidual x).datain = task.datain := by
  unfold ScsiTask.withResidual
  split <;> exact ⟨rfl, rfl, rfl⟩

/-- A response leaves two tasks with the same, but for the data that were collected for the second
of them: these are handed over, or lost. -/
theorem replyTask_agree (x : InPdu) (data : List UInt8) (task task' : ScsiTask)
    (hstatus : task.residualStatus = task'.residualStatus) (hres : task.residual = task'.residual)
    (hdata : task.datain = []) (hdata' : task'.datain = []) :
    (replyTask x [] task).status = (replyTask x data task').status ∧
      (replyTask x [] task).residualStatus = (replyTask x data task').residualStatus ∧
      (replyTask x [] task).residual = (replyTask x data task').residual ∧
      ((replyTask x data task').datain = data ++ (replyTask x [] task).datain ↔
        x.handsOver ∨ data = []) := by
  obtain ⟨hrs, hre, hd⟩ := withResidual_frame task task' x
  obtain ⟨-, -, hd'⟩ := withResidual_frame task' task x
  rw [hdata] at hd
  rw [hdata'] at hd'
  have hlost : ¬x.handsOver → (([] : List UInt8) = data ++ [] ↔ x.handsOver ∨ data = []) :=
    fun hnot => by simp [hnot, eq_comm]
  unfold replyTask
  by_cases hfinal : x.flags &&& iscsiPduDataFinal = 0
  · simp only [if_pos hfinal]
    refine ⟨trivial, hstatus, hres, ?_⟩
    rw [hdata, hdata']
    exact hlost fun h => h.1 hfinal
  simp only [if_neg hfinal]
  by_cases hack : x.flags &&& iscsiPduDataAckRequested ≠ 0
  · simp only [if_pos hack]
    refine ⟨trivial, hstatus, hres, ?_⟩
    rw [hdata, hdata']
    exact hlost fun h => hack h.2.1
  simp only [if_neg hack]
  by_cases hresp : x.flags &&& dataResidualFlags ≠ 0 ∧ byte x.hdr 2 ≠ 0
  · simp only [if_pos hresp]
    refine ⟨trivial, trivial, trivial, ?_⟩
    rw [hdata, hdata']
    exact hlost fun h => h.2.2.1 hresp
  simp only [if_neg hresp]
  by_cases hgood : (byte x.hdr 3).toNat = scsiStatusGood ∨
      (byte x.hdr 3).toNat = scsiStatusConditionMet
  · simp only [if_pos hgood]
    refine ⟨trivial, hrs, hre, ?_⟩
    have hover : x.handsOver := ⟨hfinal, not_not.1 hack, hresp, hgood⟩
    simp [hover]
  simp only [if_neg hgood]
  have hnot : ¬x.handsOver := fun h => hgood h.2.2.2
  by_cases hcheck : (byte x.hdr 3).toNat = scsiStatusCheckCondition
  · simp only [if_pos hcheck]
    refine ⟨trivial, hrs, hre, ?_⟩
    simp [hnot]
  simp only [if_neg hcheck]
  by_cases hpass : (byte x.hdr 3).toNat ∈ passedStatuses
  · simp only [if_pos hpass]
    refine ⟨trivial, hrs, hre, ?_⟩
    rw [hd, hd']
    exact hlost hnot
  · simp only [if_neg hpass]
    refine ⟨trivial, hrs, hre, ?_⟩
    rw [hd, hd']
    exact hlost hnot

/-- The step that both runs take for a response. -/
theorem response_agree (h : ReadTask w a p t iov) {x : Inbound} (xs : List Inbound)
    {mem : Nat → UInt8} (v : ScsiIovector) {data : List UInt8}
    (hx : x.Ok p.itt w.iscsi.initiatorMaxRecvDataSegmentLength)
    (hop : x.head.opcode = iscsiPduScsiResponse)
    (hdata : (iovecBytes mem iov).take data.length = data) :
    ∃ u r, receiveAll (x :: xs) (w.withVectors t mem v) a = .ok u ∧
      receiveAll (x :: xs) (w.collecting a p t data) a = .ok r ∧
      (Agree w t iov data u r ↔ x.head.handsOver ∨ data = []) := by
  have hne : ∀ q : InPdu, q.hdr = x.hdr → ∀ W, iscsiGetScsiTaskIovectorIn W q = .ok none := by
    intro q hq W
    have : q.opcode = iscsiPduScsiResponse := by rw [← hop, InPdu.opcode, hq]; rfl
    unfold iscsiGetScsiTaskIovectorIn
    rw [if_pos (by rw [this]; decide)]
  have hu := h.toWaits.withVectors mem v
  have hr := h.toWaits.collecting data
  obtain ⟨q, hq, hhdr, _, hpay⟩ := receivePdu_buffer (W := w.withVectors t mem v) hx hu.allocs
    fun q hq => hne q hq _
  obtain ⟨q', hq', hhdr', _, hpay'⟩ := receivePdu_buffer (W := w.collecting a p t data) hx hr.allocs
    fun q hq => hne q hq _
  have hqop : q.opcode = iscsiPduScsiResponse := by rw [← hop, InPdu.opcode, hhdr]; rfl
  have hqop' : q'.opcode = iscsiPduScsiResponse := by rw [← hop, InPdu.opcode, hhdr']; rfl
  obtain ⟨s, u, hproc, hu'⟩ := reply_ends hu (by rw [← hx.itt, InPdu.itt, hhdr]; rfl) hqop
  obtain ⟨s', r, hproc', hr'⟩ := reply_ends hr
    (by change q'.itt = p.itt; rw [← hx.itt, InPdu.itt, hhdr']; rfl) hqop'
  refine ⟨u, r, ?_, ?_, ?_⟩
  · rw [receiveAll, hq, hproc, Outcome.ok_bind]
    exact if_pos (.inr (by rw [hu'.freed]; rfl))
  · rw [receiveAll, hq', hproc', Outcome.ok_bind]
    exact if_pos (.inr (by rw [hr'.freed]; rfl))
  have hcongr := replyTask_congr (show q.hdr = x.whole.hdr from hhdr)
    (hpay.trans x.whole_payload.symm) p.indata
  have hcongr' := replyTask_congr (show q'.hdr = x.whole.hdr from hhdr')
    (hpay'.trans x.whole_payload.symm) data
  rw [hcongr, h.indata] at hu'
  rw [hcongr'] at hr'
  have htask : (w.withVectors t mem v).tasks t = { w.tasks t with iovectorIn := v } := by
    simp [World.withVectors]
  have htask' : (w.collecting a p t data).tasks t = { w.tasks t with iovectorIn := {} } := by
    simp [World.collecting, World.withVectors]
  rw [htask] at hu'
  rw [htask'] at hr'
  obtain ⟨hst, hrs, hre, hdat⟩ := replyTask_agree x.whole data
    { w.tasks t with iovectorIn := v } { w.tasks t with iovectorIn := {} } rfl rfl h.datain h.datain
  exact (agree_answered (w := w) hu' hr' rfl rfl hdata hst hrs hre).trans hdat

/-- In the run with vectors nothing is collected. -/
theorem collectData_vectors (q : InPdu) (mem : Nat → UInt8) {v : ScsiIovector}
    (hiov : v.iov = some iov) :
    collectData (w.withVectors t mem v) a t q = .ok (0, w.withVectors t mem v) := by
  unfold collectData
  simp [World.withVectors, hiov]

/-- In the run without vectors data are added to those that were collected. -/
theorem collectData_collecting (h : Waits w a p t) {q : InPdu} (data : List UInt8)
    {more : List UInt8}
    (hq : (q.data.getD []).take (iscsiGetPduDataSize q.hdr) = more) (hne : more ≠ []) :
    collectData (w.collecting a p t data) a t q = .ok (0, w.collecting a p t (data ++ more)) := by
  have hw := h.collecting data
  have hnone : ((w.collecting a p t data).tasks t).iovectorIn.iov.isNone = true := by
    simp [World.collecting, World.withVectors]
  unfold collectData
  rw [if_pos hnone, hq]
  unfold iscsiAddIndata
  rw [if_neg (by simpa using hne), World.malloc_eq, hw.allocs]
  simp only
  have hderef : ({ w.collecting a p t data with allocs := [].tail } : World).deref a =
      .ok { p with indata := data } := World.deref_eq_ok.2 hw.pdu
  rw [hderef]
  have hallocs : ({ w.collecting a p t data with allocs := [].tail } : World) =
      w.collecting a p t data := by
    have := hw.allocs
    generalize w.collecting a p t data = W at this ⊢
    rw [List.tail_nil, ← this]
  rw [hallocs]
  simp [World.collecting, World.setPdu]

/-- In the run without vectors an empty data segment cannot be added. -/
theorem collectData_empty {q : InPdu} {data : List UInt8}
    (hq : (q.data.getD []).take (iscsiGetPduDataSize q.hdr) = []) :
    collectData (w.collecting a p t data) a t q = .ok (-1, w.collecting a p t data) := by
  have hnone : ((w.collecting a p t data).tasks t).iovectorIn.iov.isNone = true := by
    simp [World.collecting, World.withVectors]
  unfold collectData
  rw [if_pos hnone, hq]
  rfl

/-- What a Data-In says at the end of a command depends on its header. -/
theorem dataInTask_congr {q q' : InPdu} (h : q.hdr = q'.hdr) (indata : List UInt8)
    (task : ScsiTask) : dataInTask q indata task = dataInTask q' indata task := by
  unfold dataInTask ScsiTask.withResidual InPdu.flags
  simp only [h]

/-- A PDU that is answered, or that ends the session, is the last one. -/
theorem receiveAll_last {W W' : World} {x : Inbound} {xs : List Inbound} {s : Int}
    (h : receivePdu W x = .ok (s, W')) (hfreed : W'.pdus a = none) :
    receiveAll (x :: xs) W a = .ok W' := by
  rw [receiveAll, h, Outcome.ok_bind]
  exact if_pos (.inr (by rw [hfreed]; rfl))

/-- A PDU after which the command still waits is followed by the next one. -/
theorem receiveAll_next {W W' : World} {x : Inbound} {xs : List Inbound} {q : Pdu}
    (h : receivePdu W x = .ok (0, W')) (hlive : W'.pdus a = some q) :
    receiveAll (x :: xs) W a = receiveAll xs W' a := by
  rw [receiveAll, h, Outcome.ok_bind]
  exact if_neg (by rw [hlive]; simp)

/-- The runs from a state in which the same data have been read. -/
theorem receiveAll_agree (h : ReadTask w a p t iov) : ∀ (xs : List Inbound)
    (data : List UInt8) (mem : Nat → UInt8) (v : ScsiIovector),
    InOrder p.itt w.iscsi.initiatorMaxRecvDataSegmentLength (iovecLength iov) data.length xs →
    v.CursorOk → v.iov = some iov → v.offset ≤ data.length →
    (iovecBytes mem iov).take data.length = data →
    ∃ u r, receiveAll xs (w.withVectors t mem v) a = .ok u ∧
      receiveAll xs (w.collecting a p t data) a = .ok r ∧
      (Agree w t iov (data ++ sentData xs) u r ↔ Handled (data = []) xs)
  | [], data, mem, v, _, _, _, _, _ => by
    refine ⟨_, _, rfl, rfl, ?_⟩
    simp only [Handled, iff_false]
    intro hagree
    have := hagree.onceVectors
    simp [World.withVectors] at this
  | x :: xs, data, mem, v, hin, hc, hiov, hcur, hdata => by
    obtain ⟨hx, ⟨hop, hpos, hfit, hin⟩ | ⟨hop, hin⟩⟩ := hin
    swap
    · obtain ⟨u, r, hu, hr, hagree⟩ := response_agree h xs v hx hop hdata
      refine ⟨u, r, hu, hr, ?_⟩
      rw [sentData, if_pos hop, List.append_nil, hagree, Handled, if_pos hop]
    have hnot : x.head.opcode ≠ iscsiPduScsiResponse := by rw [hop]; decide
    obtain ⟨mem', v', q, hq, hhdr, hc', hiov', hcur', hbytes⟩ :=
      receivePdu_vectors h hx hop hpos hfit hc hiov hcur hdata
    have hr := h.toWaits.collecting data
    obtain ⟨q', hq', hhdr', hqdata, _⟩ := receivePdu_buffer (W := w.collecting a p t data) hx
      hr.allocs fun q hq => iovectorIn_collecting h.toWaits data
        (by rw [← hx.itt, InPdu.itt, hq]; rfl)
    have hu := h.toWaits.withVectors mem' v'
    have hlen := hx.length
    have hlen' : (data ++ x.data).length = data.length + iscsiGetPduDataSize x.hdr := by
      rw [List.length_append, hlen]
    have hbytes' : (iovecBytes mem' iov).take (data ++ x.data).length = data ++ x.data := by
      rw [hlen', hbytes]
    have hmore : (q'.data.getD []).take (iscsiGetPduDataSize q'.hdr) = x.data := by
      rw [hqdata, hhdr']
      rfl
    have hitt : q.itt = p.itt := by rw [← hx.itt, InPdu.itt, hhdr]; rfl
    have hitt' : q'.itt = p.itt := by rw [← hx.itt, InPdu.itt, hhdr']; rfl
    have hqop : q.opcode = iscsiPduDataIn := by rw [← hop, InPdu.opcode, hhdr]; rfl
    have hqop' : q'.opcode = iscsiPduDataIn := by rw [← hop, InPdu.opcode, hhdr']; rfl
    have hflags : q.flags = x.head.flags := by rw [InPdu.flags, hhdr]; rfl
    have hflags' : q'.flags = x.head.flags := by rw [InPdu.flags, hhdr']; rfl
    have hends : q.endsCommand = x.head.endsCommand := by
      rw [InPdu.endsCommand, hflags]; rfl
    have hends' : q'.endsCommand = x.head.endsCommand := by
      rw [InPdu.endsCommand, hflags']; rfl
    have htask : (w.withVectors t mem' v').tasks t = { w.tasks t with iovectorIn := v' } := by
      simp [World.withVectors]
    have htask' : ∀ data, (w.collecting a p t data).tasks t =
        { w.tasks t with iovectorIn := {} } := fun data => by
      simp [World.collecting, World.withVectors]
    have hadd := collectData_vectors (w := w) (a := a) (t := t) q mem' hiov'
    obtain ⟨u₁, r₁, hu₁, hr₁, hagree₁⟩ := receiveAll_agree h xs (data ++ x.data) mem' v'
      (by rw [hlen']; exact hin) hc' hiov' (by rw [hlen']; exact hcur') hbytes'
    by_cases hack : x.head.flags &&& iscsiPduDataAckRequested ≠ 0
    · -- both runs end with an error
      obtain ⟨s, u, hproc, hdone⟩ := dataIn_refused hu hitt hqop (by rw [hflags]; exact hack)
      obtain ⟨s', r, hproc', hdone'⟩ := dataIn_refused hr hitt' hqop' (by rw [hflags']; exact hack)
      refine ⟨u, r, receiveAll_last (hq.trans hproc) hdone.freed,
        receiveAll_last (hq'.trans hproc') hdone'.freed, ?_⟩
      rw [sentData, if_neg hnot, if_pos (.inl hack), Handled, if_neg hnot, if_pos hack]
      rw [htask] at hdone
      rw [htask'] at hdone'
      refine (agree_answered (w := w) hdone hdone' rfl rfl hbytes' rfl rfl rfl).trans ?_
      change (w.tasks t).datain = data ++ x.data ++ (w.tasks t).datain ↔ _
      rw [h.datain, List.append_nil]
      exact ⟨fun h => List.append_eq_nil_iff.1 h.symm, fun h => (List.append_eq_nil_iff.2 h).symm⟩
    rw [sentData, if_neg hnot, Handled, if_neg hnot, if_neg hack]
    have hack₀ : x.head.flags &&& iscsiPduDataAckRequested = 0 := not_not.1 hack
    -- the run with vectors, whatever the length
    have huser : x.head.endsCommand = true ∧ (∃ u, receiveAll (x :: xs) (w.withVectors t mem v) a =
          .ok u ∧ Answered (w.withVectors t mem' v') u a t
            (dataInTask x.head [] { w.tasks t with iovectorIn := v' })) ∨
        x.head.endsCommand = false ∧ receiveAll (x :: xs) (w.withVectors t mem v) a = .ok u₁ := by
      rcases he : x.head.endsCommand with _ | _
      · refine .inr ⟨rfl, ?_⟩
        have hproc := dataIn_continues hu hitt hqop (by rw [hflags]; exact hack₀) hadd
          (hends.trans he)
        rw [receiveAll_next (hq.trans hproc) hu.pdu, hu₁]
      · obtain ⟨s, u, hproc, hdone⟩ := dataIn_ends hu hitt hqop (by rw [hflags]; exact hack₀) hadd
          hu (hends.trans he)
        rw [htask, h.indata, dataInTask_congr (show q.hdr = x.head.hdr from hhdr)] at hdone
        exact .inl ⟨rfl, u, receiveAll_last (hq.trans hproc) hdone.freed, hdone⟩
    by_cases hempty : x.data = []
    · -- the run without vectors fails without a callback
      obtain ⟨r, hproc, hfreed, hcalls⟩ := dataIn_fails hr hitt' hqop'
        (by rw [hflags']; exact hack₀) (collectData_empty (hmore.trans hempty))
      obtain ⟨u, hu'⟩ : ∃ u, receiveAll (x :: xs) (w.withVectors t mem v) a = .ok u := by
        rcases huser with ⟨_, u, hu', _⟩ | ⟨_, hu'⟩
        · exact ⟨u, hu'⟩
        · exact ⟨u₁, hu'⟩
      refine ⟨u, r, hu', receiveAll_last (hq'.trans hproc) hfreed, ?_⟩
      have hbase : callbacks t (w.collecting a p t data).trace = callbacks t w.trace := rfl
      refine ⟨fun hagree => ?_, fun hh => absurd hempty hh.1⟩
      have := hagree.onceBuffer
      omega
    have hadd' := collectData_collecting h.toWaits data hmore hempty
    rcases huser with ⟨he, u, hu', hdone⟩ | ⟨he, hu'⟩
    · -- the last Data-In
      obtain ⟨s', r, hproc', hdone'⟩ := dataIn_ends hr hitt' hqop' (by rw [hflags']; exact hack₀)
        hadd' (h.toWaits.collecting (data ++ x.data)) (hends'.trans he)
      rw [htask', dataInTask_congr (show q'.hdr = x.head.hdr from hhdr')] at hdone'
      refine ⟨u, r, hu', receiveAll_last (hq'.trans hproc') hdone'.freed, ?_⟩
      rw [if_pos (.inr he)]
      obtain ⟨hrs, hre, -⟩ := withResidual_frame { w.tasks t with iovectorIn := v' }
        { w.tasks t with iovectorIn := {} } x.head
      refine (agree_answered (w := w) hdone hdone' rfl rfl hbytes' rfl hrs hre).trans ?_
      simp [dataInTask, hempty, he]
    · -- the next one follows
      have hproc' := dataIn_continues hr hitt' hqop' (by rw [hflags']; exact hack₀) hadd'
        (hends'.trans he)
      refine ⟨u₁, r₁, hu', ?_, ?_⟩
      · rw [receiveAll_next (hq'.trans hproc') (h.toWaits.collecting _).pdu, hr₁]
      · rw [if_neg (by simp [hack₀, he]), ← List.append_assoc, hagree₁]
        have hsome : (data ++ x.data = []) = False := by simp [hempty]
        rw [hsome]
        simp [hempty, he]

/-! ## The main result -/

/-- The run with vectors and the run without them both go through, and agree. -/
def RunsAgree (w : World) (a : Addr) (t : TaskPtr) (iov : List ScsiIovec) (xs : List Inbound) :
    Prop :=
  ∃ u r, receiveAll xs (w.withVectors t w.mem { iov := some iov }) a = .ok u ∧
    receiveAll xs (w.withVectors t w.mem {}) a = .ok r ∧ Agree w t iov (sentData xs) u r

/-- **The two ways Data-In reach the application agree exactly when no Data-In is empty, and the
status comes in the last of them or in a response that hands the data over**, or there are none. -/
theorem dataIn_agree_iff (h : ReadTask w a p t iov) {xs : List Inbound}
    (hin : InOrder p.itt w.iscsi.initiatorMaxRecvDataSegmentLength (iovecLength iov) 0 xs) :
    RunsAgree w a t iov xs ↔ Handled True xs := by
  obtain ⟨u, r, hu, hr, hagree⟩ := receiveAll_agree h xs [] w.mem { iov := some iov } hin
    (fun _ _ => by simp [iovecLength]) rfl (Nat.zero_le _) (by simp)
  have hstart : w.collecting a p t [] = w.withVectors t w.mem {} := by
    have hp : (w.withVectors t w.mem {}).pdus a = some { p with indata := [] } := by
      change w.pdus a = _
      rw [h.pdu, ← h.indata]
    unfold World.collecting World.setPdu
    rw [Function.update_eq_self_iff.2 hp.symm]
  rw [hstart] at hr
  rw [List.nil_append, eq_self] at hagree
  rw [← hagree]
  constructor
  · rintro ⟨u', r', hu', hr', hag⟩
    obtain rfl := Except.ok.inj (hu.symm.trans hu')
    obtain rfl := Except.ok.inj (hr.symm.trans hr')
    exact hag
  · intro hag
    exact ⟨u, r, hu, hr, hag⟩

end

/-! ## A READ of eight bytes -/

/-- The header of a Data-In of the command with tag 5. -/
def dataInHdr (flags : UInt8) (len offset : UInt32) : List UInt8 :=
  scsiSetUint32 (scsiSetUint32 (scsiSetUint32
    (((List.replicate 48 0).set 0 iscsiPduDataIn).set 1 flags) 4 len) 16 5) 40 offset

/-- The command with tag 5. -/
def readPdu : Pdu where
  itt := 5
  callback := some .scsiResponseCb
  responseOpcode := iscsiPduScsiResponse
  scsiCbdata := { callback := some (.user 1), task := some 0 }

/-- A session in which the command waits. -/
def readWorld : World where
  iscsi := { waitpdu := [0], initiatorMaxRecvDataSegmentLength := 4096 }
  pdus a := if a = 0 then some readPdu else none
  brk := 1

/-- Two vectors for eight bytes. -/
def readVectors : List ScsiIovec :=
  [{ iovBase := 100, iovLen := 3 }, { iovBase := 200, iovLen := 5 }]

theorem readWorld_task : ReadTask readWorld 0 readPdu 0 readVectors where
  pdu := rfl
  task := rfl
  callback := rfl
  userCallback := rfl
  response := rfl
  found := rfl
  allocs := rfl
  indata := rfl
  datain := rfl
  apart := by decide
  size := by decide

/-- Five bytes and three of padding, in pieces, and then three bytes with the status. -/
def twoDataIns : List Inbound :=
  [{ hdr := dataInHdr 0 5 0, stream := [1, 2, 3, 4, 5, 0, 0, 0], cuts := [1, 0] },
    { hdr := dataInHdr 0x81 3 5, stream := [6, 7, 8, 0], cuts := [] }]

/-- The runs agree on the two Data-In. -/
theorem dataIn_agree_two : RunsAgree readWorld 0 0 readVectors twoDataIns := by
  refine (dataIn_agree_iff readWorld_task ?_).2 ?_
  · refine ⟨⟨by decide, by decide, by decide⟩, .inl ⟨by decide, by decide, by decide, ?_⟩⟩
    exact ⟨⟨by decide, by decide, by decide⟩, .inl ⟨by decide, by decide, by decide, trivial⟩⟩
  · simp only [Handled, twoDataIns]
    decide

/-- A Data-In without data, with the status. -/
def emptyDataIn : List Inbound := [{ hdr := dataInHdr 0x81 0 0, stream := [], cuts := [] }]

/-- The PDUs of a command that is answered: the last one is a response, or a Data-In that ends the
command, and no other. -/
def Complete : List Inbound → Prop
  | [] => False
  | x :: xs =>
    if x.head.opcode = iscsiPduScsiResponse ∨ x.head.endsCommand then xs = [] else Complete xs

/-- The run without vectors does not call the application for a Data-In without data. -/
theorem dataIn_empty_disagree : ¬∀ (w : World) (a : Addr) (p : Pdu) (t : TaskPtr)
    (iov : List ScsiIovec) (xs : List Inbound), ReadTask w a p t iov →
      InOrder p.itt w.iscsi.initiatorMaxRecvDataSegmentLength (iovecLength iov) 0 xs →
      Complete xs → RunsAgree w a t iov xs := by
  intro h
  have hcomplete : Complete emptyDataIn := by
    simp only [Complete, emptyDataIn]
    decide
  obtain ⟨_, r, _, hr, hagree⟩ := h readWorld 0 readPdu 0 readVectors emptyDataIn readWorld_task
    ⟨⟨by decide, by decide, by decide⟩, .inl ⟨by decide, by decide, by decide, trivial⟩⟩ hcomplete
  have hcalls : (receiveAll emptyDataIn (readWorld.withVectors 0 readWorld.mem {}) 0).toOption.map
      (fun r => callbacks 0 r.trace) = some 0 := by decide +kernel
  rw [hr] at hcalls
  have := hagree.onceBuffer
  simp only [Except.toOption, Option.map_some, Option.some.injEq] at hcalls
  rw [hcalls] at this
  cases this

end Libiscsi
