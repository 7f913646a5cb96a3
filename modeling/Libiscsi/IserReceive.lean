import Libiscsi.Discovery
import Libiscsi.LoginBounds
import Libiscsi.Lib.Run

/-!
# The messages that the iSER transport receives

`iser_rcv_completion` and what `iscsi_process_pdu` does with the message after it, with each use of
the waiting PDU, of its descriptor and of its task, and each read of the data segment, checked. The
waiting PDU is looked up and used before the opcode is looked at, and the length of the data segment
is that of the header, while the buffer has a fixed size. So it is only some messages
(`iserReceive_iff`) for which no check fails.
-/

namespace Libiscsi

open CString

/-! ## The strings of a data segment -/

section
variable {σ : Type*} (step : σ → CStr → Option σ)

/-- The loop over the strings of a login or text reply reads only in the buffer: `memchr` looks for
the NUL in `size` bytes, and a string that `step` refuses ends the loop. The number bounds the
turns. -/
def scanStrings : ℕ → List UInt8 → ℕ → σ → Bool
  | 0, _, _, _ => true
  | fuel + 1, data, size, st =>
    if size = 0 then true
    else
      let s := first data
      if s.length < min size data.length then
        if s = [] then true
        else
          match step st s with
          | none => true
          | some st => scanStrings fuel (data.drop (s.length + 1)) (size - (s.length + 1)) st
      else decide (size ≤ data.length)

/-- The loop over the strings of a buffer ends in it: at an empty string, or one that is refused. -/
inductive StopsInside : σ → List UInt8 → Prop where
  | empty {st : σ} {data : List UInt8} : first data = [] → 0 ∈ data → StopsInside st data
  | refused {st : σ} {data : List UInt8} :
      first data ≠ [] → 0 ∈ data → step st (first data) = none → StopsInside st data
  | next {st st' : σ} {data : List UInt8} : first data ≠ [] → 0 ∈ data →
      step st (first data) = some st' →
      StopsInside st' (data.drop ((first data).length + 1)) → StopsInside st data

variable {step}

/-- A string ends in the buffer where there is a NUL. -/
theorem first_length_lt_iff {data : List UInt8} : (first data).length < data.length ↔ 0 ∈ data := by
  induction data with
  | nil => exact iff_of_false (Nat.lt_irrefl 0) List.not_mem_nil
  | cons b data ih =>
    by_cases hb : b = 0
    · subst hb
      exact iff_of_true (Nat.succ_pos _) List.mem_cons_self
    · have hcons : first (b :: data) = b :: first data := by
        rw [first, List.takeWhile_cons_of_pos (by simpa using hb), first]
      rw [hcons, List.length_cons, List.length_cons, Nat.succ_lt_succ_iff, ih, List.mem_cons,
        or_iff_right (Ne.symm hb)]

theorem StopsInside.mem {st : σ} {data : List UInt8} (h : StopsInside step st data) : 0 ∈ data := by
  cases h with
  | empty _ hmem => exact hmem
  | refused _ hmem _ => exact hmem
  | next _ hmem _ _ => exact hmem

/-- **The loop reads only in the buffer exactly if the length is no longer than it, or the loop ends
before.** -/
theorem scanStrings_iff {fuel : ℕ} {data : List UInt8} {size : ℕ} {st : σ}
    (hfuel : data.length < fuel) : scanStrings step fuel data size st = true ↔
      size ≤ data.length ∨ StopsInside step st data := by
  induction fuel generalizing data size st with
  | zero => exact absurd hfuel (Nat.not_lt_zero _)
  | succ fuel ih =>
    unfold scanStrings
    by_cases hzero : size = 0
    · rw [if_pos hzero]
      exact iff_of_true rfl (.inl (by omega))
    rw [if_neg hzero]
    by_cases hfound : (first data).length < min size data.length
    · simp only [if_pos hfound]
      have hmem : 0 ∈ data := first_length_lt_iff.1 (by omega)
      by_cases hempty : first data = []
      · rw [if_pos hempty]
        exact iff_of_true rfl (.inr (.empty hempty hmem))
      rw [if_neg hempty]
      cases hstep : step st (first data) with
      | none => exact iff_of_true rfl (.inr (.refused hempty hmem hstep))
      | some st' =>
        have hdrop : (data.drop ((first data).length + 1)).length =
            data.length - ((first data).length + 1) := List.length_drop
        simp only
        rw [ih (by omega), hdrop]
        constructor
        · rintro (hle | hstops)
          · exact .inl (by omega)
          · exact .inr (.next hempty hmem hstep hstops)
        · rintro (hle | hstops)
          · exact .inl (by omega)
          · right
            cases hstops with
            | empty hempty' _ => exact absurd hempty' hempty
            | refused _ _ hnone =>
              rw [hstep] at hnone
              cases hnone
            | next _ _ hsome hrest =>
              rw [hstep] at hsome
              obtain rfl := Option.some.inj hsome
              exact hrest
    · simp only [if_neg hfound]
      rw [decide_eq_true_iff]
      refine ⟨.inl, ?_⟩
      rintro (hle | hstops)
      · exact hle
      · have hlt := first_length_lt_iff.2 hstops.mem
        omega

end

/-! ## Receiving -/

/-- What goes wrong. -/
inductive ReceiveFault where
  | nullPdu
  | nullDesc
  | nullTask
  | beyondData
  deriving DecidableEq, Repr

/-- A PDU in `waitpdu`: its descriptor, of which is seen whether it is that of a read, and its
task. -/
structure WaitingPdu where
  itt : UInt32
  responseOpcode : UInt8
  desc : Option Bool := none
  task : Option ScsiTask := none
  callback : Bool := true
  deriving DecidableEq, Repr

/-- What of the transport a message meets. -/
structure IserReceiver where
  waitpdu : List WaitingPdu := []
  iscsi : Context := {}
  heap : AllocState := {}

/-- A message, in the login buffer or in a receive descriptor, with what stands in the whole data
array. It is `stopped` where the buffers cannot be posted again, or `iscsi_process_pdu` refuses its
digests or its AHS; its data are copied where memory is `allocated` for them. -/
structure IserMessage where
  hdr : List UInt8
  data : List UInt8
  data_length : data.length = 8192 ∨ data.length = 128
  stopped : Bool := false
  allocated : Bool := true

namespace IserMessage
variable (m : IserMessage)

/-- `in->hdr[0] & 0x3f`. -/
def opcode : UInt8 := byte m.hdr 0 &&& 0x3f

/-- `in->hdr[1]`. -/
def flags : UInt8 := byte m.hdr 1

/-- The ITT of the header. -/
def itt : UInt32 := scsiGetUint32 m.hdr 16

/-- `in->data_pos`. -/
def size : ℕ := iscsiGetPduDataSize m.hdr

/-- A message that is not looked up: a NOP-In of the target, or an asynchronous message. -/
def unsolicited : Bool :=
  (m.opcode = iscsiPduNopIn && m.itt = 0xffffffff) || m.opcode = iscsiPduAsyncMsg

end IserMessage

/-- `n` bytes are read from the beginning of the data array. -/
def readBuffer (m : IserMessage) (n : ℕ) : Except ReceiveFault Unit :=
  if n ≤ m.data.length then .ok () else .error .beyondData

/-- `ISCSI_REJECT_WAITING_FOR_LOGOUT`. -/
def iscsiRejectWaitingForLogout : UInt8 := 0x0c

/-- `iscsi_process_reject`: the header that was rejected is read. -/
def receiveReject (m : IserMessage) : Except ReceiveFault Unit :=
  if m.size < iscsiRawHeaderSize then .ok ()
  else if byte m.hdr 2 = iscsiRejectWaitingForLogout then .ok ()
  else readBuffer m iscsiRawHeaderSize

/-- The step of the loop of `iscsi_process_login_reply`. What it reads of a string lies in it
(`checkedLoginString_eq`). -/
def loginStep (st : LoginParse) (s : CStr) : Option LoginParse := (loginString st s).toOption

/-- The step of the loop of `iscsi_process_text_reply`. -/
def textStep (st : AllocState × List IscsiDiscoveryAddress) (s : CStr) :
    Option (AllocState × List IscsiDiscoveryAddress) := (textString {} st.1 st.2 s).toOption

/-- What the loop of `iscsi_process_login_reply` begins with. -/
def IserReceiver.loginStart (s : IserReceiver) (m : IserMessage) : LoginParse :=
  let inPdu : InPdu := { hdr := m.hdr }
  let c := (iscsiProcessPduSerials s.iscsi inPdu).takeStatsn inPdu
  { c, mustHaveChapN := mustAuthenticate c inPdu, mustHaveChapR := mustAuthenticate c inPdu }

/-- The loop over the strings of a reply. -/
def receiveStrings {σ : Type*} (step : σ → CStr → Option σ) (m : IserMessage) (st : σ) :
    Except ReceiveFault Unit :=
  if scanStrings step (m.data.length + 1) m.data m.size st then .ok () else .error .beyondData

/-- The task of a waiting PDU is used. -/
def WaitingPdu.useTask (w : WaitingPdu) : Except ReceiveFault ScsiTask :=
  match w.task with
  | some task => .ok task
  | none => .error .nullTask

/-- `iscsi_process_scsi_reply`: the sense data are copied. -/
def receiveScsiReply (w : WaitingPdu) (m : IserMessage) : Except ReceiveFault Unit :=
  if m.flags &&& iscsiPduDataFinal = 0 then .ok ()
  else if m.flags &&& iscsiPduDataAckRequested ≠ 0 then .ok ()
  else do
    let _ ← w.useTask
    if m.flags &&& (iscsiPduDataResidualOverflow ||| iscsiPduDataResidualUnderflow) ≠ 0 ∧
      byte m.hdr 2 ≠ 0 then .ok ()
    else if byte m.hdr 3 = 2 ∧ m.allocated then readBuffer m m.size
    else .ok ()

/-- `iscsi_process_scsi_data_in`: the data are added to those of the PDU, if the task has no
vectors. -/
def receiveDataIn (w : WaitingPdu) (m : IserMessage) : Except ReceiveFault Unit :=
  if m.flags &&& iscsiPduDataAckRequested ≠ 0 then .ok ()
  else do
    let task ← w.useTask
    if task.iovectorIn.iov = none ∧ m.allocated then readBuffer m m.size else .ok ()

/-- `iscsi_process_nop_out_reply`: the callback is given the data. -/
def receiveNopIn (w : WaitingPdu) (m : IserMessage) : Except ReceiveFault Unit :=
  if w.callback then readBuffer m m.size else .ok ()

/-- `iscsi_process_text_reply`. -/
def receiveText (s : IserReceiver) (m : IserMessage) : Except ReceiveFault Unit :=
  if m.flags ≠ iscsiPduTextFinal then .ok () else receiveStrings textStep m (s.heap, [])

/-- The opcode that `iscsi_process_pdu` expects for a message. -/
def WaitingPdu.expectedResponse (w : WaitingPdu) (m : IserMessage) : UInt8 :=
  if m.opcode = iscsiPduR2t then iscsiPduR2t
  else if m.opcode = iscsiPduDataIn ∧ w.responseOpcode = iscsiPduScsiResponse then iscsiPduDataIn
  else w.responseOpcode

/-- `iscsi_process_pdu` for a message whose waiting PDU was found. Only the replies with data read
some; a REJECT is not matched. -/
def receiveMatched (s : IserReceiver) (w : WaitingPdu) (m : IserMessage) :
    Except ReceiveFault Unit :=
  if m.stopped then .ok ()
  else if m.opcode = iscsiPduReject then receiveReject m
  else if m.opcode ≠ w.expectedResponse m then .ok ()
  else if m.opcode = iscsiPduLoginResponse then receiveStrings loginStep m (s.loginStart m)
  else if m.opcode = iscsiPduTextResponse then receiveText s m
  else if m.opcode = iscsiPduScsiResponse then receiveScsiReply w m
  else if m.opcode = iscsiPduDataIn then receiveDataIn w m
  else if m.opcode = iscsiPduNopIn then receiveNopIn w m
  else .ok ()

/-- `iser_rcv_completion`, and `iscsi_process_pdu` after it. -/
def iserReceive (s : IserReceiver) (m : IserMessage) : Except ReceiveFault Unit :=
  if m.unsolicited then .ok ()
  else
    match s.waitpdu.find? (·.itt = m.itt) with
    | none => .error .nullPdu
    | some w =>
      match w.desc with
      | none => .error .nullDesc
      | some isRead => do
        if isRead then
          let _ ← w.useTask
        receiveMatched s w m

/-! ## Runs -/

/-- What happens to the PDUs that wait. -/
inductive ReceiverOp where
  /-- `iscsi_iser_send_pdu` for a SCSI command; the descriptor may be impossible to allocate. -/
  | sendCommand (itt : UInt32) (task : ScsiTask) (desc callback : Bool)
  /-- The same for another PDU, which has no data to read; a DATA-OUT has a task. -/
  | sendOther (itt : UInt32) (responseOpcode : UInt8) (task : Option ScsiTask)
      (desc callback : Bool)
  /-- A PDU is completed, cancelled or timed out. -/
  | remove (i : ℕ)
  /-- `iser_free_queued_pdu_tx_desc`. -/
  | disconnect
  /-- The context and the memory change. -/
  | change (iscsi : Context) (heap : AllocState)

/-- The replies that PDUs other than commands wait for. -/
def otherResponses : List UInt8 := [iscsiPduNopIn, iscsiPduScsiTaskManagementResponse,
  iscsiPduLoginResponse, iscsiPduTextResponse, iscsiPduLogoutResponse, iscsiPduNoPdu]

/-- One step. -/
def IserReceiver.step (s : IserReceiver) : ReceiverOp → IserReceiver
  | .sendCommand itt task desc callback => { s with waitpdu := s.waitpdu ++ [{
      itt
      responseOpcode := iscsiPduScsiResponse
      desc := if desc then some (task.xferDir = .read) else none
      task := some task
      callback }] }
  | .sendOther itt responseOpcode task desc callback =>
    if responseOpcode ∈ otherResponses then
      { s with waitpdu := s.waitpdu ++ [{
        itt
        responseOpcode
        desc := if desc then some false else none
        task
        callback }] }
    else s
  | .remove i => { s with waitpdu := s.waitpdu.eraseIdx i }
  | .disconnect => { s with waitpdu := s.waitpdu.map fun w => { w with desc := none } }
  | .change iscsi heap => { s with iscsi, heap }

/-- A PDU that is that of a command has a task. -/
def WaitingPdu.Tasked (w : WaitingPdu) : Prop :=
  w.desc = some true ∨ w.responseOpcode = iscsiPduScsiResponse ∨
    w.responseOpcode = iscsiPduDataIn → w.task ≠ none

/-- The PDUs that a step leaves or adds have their tasks. -/
theorem IserReceiver.tasked_step {t : IserReceiver} (ht : ∀ w ∈ t.waitpdu, w.Tasked)
    (op : ReceiverOp) : ∀ w ∈ (t.step op).waitpdu, w.Tasked := by
  cases op with
  | sendCommand itt task desc callback =>
    intro w hw
    rcases List.mem_append.1 hw with hw | hw
    · exact ht w hw
    · rw [List.mem_singleton.1 hw]
      exact fun _ => Option.some_ne_none task
  | sendOther itt responseOpcode task desc callback =>
    intro w hw
    unfold IserReceiver.step at hw
    by_cases hother : responseOpcode ∈ otherResponses
    · simp only [if_pos hother] at hw
      rcases List.mem_append.1 hw with hw | hw
      · exact ht w hw
      · rw [List.mem_singleton.1 hw]
        rintro (hdesc | rfl | rfl)
        · cases desc with
          | true => cases hdesc
          | false => cases hdesc
        · exact absurd hother (by decide)
        · exact absurd hother (by decide)
    · simp only [if_neg hother] at hw
      exact ht w hw
  | remove i =>
    intro w hw
    exact ht w ((List.eraseIdx_sublist _ _).subset hw)
  | disconnect =>
    intro w hw
    obtain ⟨w', hw', rfl⟩ := List.mem_map.1 hw
    rintro (hdesc | hresponse)
    · cases hdesc
    · exact ht w' hw' (.inr hresponse)
  | change iscsi heap => exact ht

/-- **In every run the PDUs of commands have their tasks.** -/
theorem IserReceiver.tasked {s : IserReceiver}
    (hrun : Run (fun op s s' => s' = IserReceiver.step s op) {} s) :
    ∀ w ∈ s.waitpdu, w.Tasked := by
  have hkeep : ∀ op (t t' : IserReceiver), (∀ w ∈ t.waitpdu, w.Tasked) → t' = t.step op →
      ∀ w ∈ t'.waitpdu, w.Tasked := by
    rintro op t t' ht rfl
    exact IserReceiver.tasked_step ht op
  exact Run.invariant hrun (List.forall_mem_nil _) hkeep

/-! ## The messages that are safe -/

/-- What `iscsi_process_pdu` reads of a message for which a PDU waits lies in the buffer. -/
def ReadsInside (s : IserReceiver) (w : WaitingPdu) (m : IserMessage) : Prop :=
  m.size ≤ m.data.length ∨
    if m.opcode = iscsiPduLoginResponse then StopsInside loginStep (s.loginStart m) m.data
    else if m.opcode = iscsiPduTextResponse then
      m.flags ≠ iscsiPduTextFinal ∨ StopsInside textStep (s.heap, []) m.data
    else if m.opcode = iscsiPduScsiResponse then
      m.flags &&& iscsiPduDataFinal = 0 ∨ m.flags &&& iscsiPduDataAckRequested ≠ 0 ∨
        m.flags &&& (iscsiPduDataResidualOverflow ||| iscsiPduDataResidualUnderflow) ≠ 0 ∧
          byte m.hdr 2 ≠ 0 ∨ byte m.hdr 3 ≠ 2 ∨ m.allocated = false
    else if m.opcode = iscsiPduDataIn then
      m.flags &&& iscsiPduDataAckRequested ≠ 0 ∨ m.allocated = false ∨
        ∃ task ∈ w.task, task.iovectorIn.iov ≠ none
    else if m.opcode = iscsiPduNopIn then w.callback = false
    else True

/-- A message is not looked up, or a PDU with a descriptor waits for it, and where it is processed
as that PDU's reply its data lie in the buffer as far as they are read. -/
def ReceiveSafe (s : IserReceiver) (m : IserMessage) : Prop :=
  m.unsolicited = true ∨ ∃ w, s.waitpdu.find? (·.itt = m.itt) = some w ∧ w.desc ≠ none ∧
    (m.stopped = true ∨ m.opcode = iscsiPduReject ∨ m.opcode ≠ w.expectedResponse m ∨
      ReadsInside s w m)

section
variable {s : IserReceiver} {w : WaitingPdu} {m : IserMessage}

theorem readBuffer_ok {n : ℕ} : readBuffer m n = .ok () ↔ n ≤ m.data.length := by
  unfold readBuffer
  by_cases hle : n ≤ m.data.length
  · rw [if_pos hle]
    exact iff_of_true rfl hle
  · rw [if_neg hle]
    exact iff_of_false (fun h => by cases h) hle

theorem receiveStrings_ok {σ : Type*} {step : σ → CStr → Option σ} {st : σ} :
    receiveStrings step m st = .ok () ↔
      m.size ≤ m.data.length ∨ StopsInside step st m.data := by
  rw [← scanStrings_iff (Nat.lt_succ_self _)]
  unfold receiveStrings
  by_cases hscan : scanStrings step (m.data.length + 1) m.data m.size st = true
  · rw [if_pos hscan]
    exact iff_of_true rfl hscan
  · rw [if_neg hscan]
    exact iff_of_false (fun h => by cases h) hscan

/-- The header that was rejected is shorter than every buffer. -/
theorem receiveReject_ok : receiveReject m = .ok () := by
  unfold receiveReject
  by_cases hsize : m.size < iscsiRawHeaderSize
  · rw [if_pos hsize]
  rw [if_neg hsize]
  by_cases hreason : byte m.hdr 2 = iscsiRejectWaitingForLogout
  · rw [if_pos hreason]
  · rw [if_neg hreason]
    refine readBuffer_ok.2 ?_
    have hlength := m.data_length
    unfold iscsiRawHeaderSize
    omega

/-- A SCSI Response. -/
theorem receiveScsiReply_ok (htask : w.task ≠ none) : receiveScsiReply w m = .ok () ↔
    m.size ≤ m.data.length ∨ (m.flags &&& iscsiPduDataFinal = 0 ∨
      m.flags &&& iscsiPduDataAckRequested ≠ 0 ∨
        m.flags &&& (iscsiPduDataResidualOverflow ||| iscsiPduDataResidualUnderflow) ≠ 0 ∧
          byte m.hdr 2 ≠ 0 ∨ byte m.hdr 3 ≠ 2 ∨ m.allocated = false) := by
  obtain ⟨task, hsome⟩ := Option.ne_none_iff_exists'.1 htask
  unfold receiveScsiReply WaitingPdu.useTask
  rw [hsome]
  by_cases hfinal : m.flags &&& iscsiPduDataFinal = 0
  · rw [if_pos hfinal]
    exact iff_of_true rfl (.inr (.inl hfinal))
  rw [if_neg hfinal]
  by_cases hack : m.flags &&& iscsiPduDataAckRequested ≠ 0
  · rw [if_pos hack]
    exact iff_of_true rfl (.inr (.inr (.inl hack)))
  rw [if_neg hack]
  simp only [Outcome.ok_bind]
  by_cases hresidual : m.flags &&& (iscsiPduDataResidualOverflow |||
      iscsiPduDataResidualUnderflow) ≠ 0 ∧ byte m.hdr 2 ≠ 0
  · rw [if_pos hresidual]
    exact iff_of_true rfl (.inr (.inr (.inr (.inl hresidual))))
  rw [if_neg hresidual]
  by_cases hstatus : byte m.hdr 3 = 2 ∧ m.allocated = true
  · rw [if_pos hstatus, readBuffer_ok]
    constructor
    · exact .inl
    · rintro (hle | h | h | h | h | h)
      · exact hle
      · exact absurd h hfinal
      · exact absurd h hack
      · exact absurd h hresidual
      · exact absurd hstatus.1 h
      · exact absurd hstatus.2 (Bool.eq_false_iff.1 h)
  · rw [if_neg hstatus]
    rw [not_and_or, Bool.not_eq_true] at hstatus
    exact iff_of_true rfl (.inr (.inr (.inr (.inr hstatus))))

/-- A Data-In. -/
theorem receiveDataIn_ok (htask : w.task ≠ none) : receiveDataIn w m = .ok () ↔
    m.size ≤ m.data.length ∨ (m.flags &&& iscsiPduDataAckRequested ≠ 0 ∨ m.allocated = false ∨
      ∃ task ∈ w.task, task.iovectorIn.iov ≠ none) := by
  obtain ⟨task, hsome⟩ := Option.ne_none_iff_exists'.1 htask
  unfold receiveDataIn WaitingPdu.useTask
  rw [hsome]
  by_cases hack : m.flags &&& iscsiPduDataAckRequested ≠ 0
  · rw [if_pos hack]
    exact iff_of_true rfl (.inr (.inl hack))
  rw [if_neg hack]
  simp only [Outcome.ok_bind]
  by_cases hcopied : task.iovectorIn.iov = none ∧ m.allocated = true
  · rw [if_pos hcopied, readBuffer_ok]
    constructor
    · exact .inl
    · rintro (hle | h | h | ⟨task', htask', h⟩)
      · exact hle
      · exact absurd h hack
      · exact absurd hcopied.2 (Bool.eq_false_iff.1 h)
      · obtain rfl := Option.some.inj htask'
        exact absurd hcopied.1 h
  · rw [if_neg hcopied]
    rw [not_and_or, Bool.not_eq_true] at hcopied
    refine iff_of_true rfl (.inr (.inr ?_))
    rcases hcopied with hiov | hnone
    · exact .inr ⟨task, rfl, hiov⟩
    · exact .inl hnone

/-- **What is done with the message of a waiting PDU reads only in the buffer exactly if the reads
lie in it.** -/
theorem receiveMatched_ok (htask : w.Tasked) : receiveMatched s w m = .ok () ↔
    m.stopped = true ∨ m.opcode = iscsiPduReject ∨ m.opcode ≠ w.expectedResponse m ∨
      ReadsInside s w m := by
  unfold receiveMatched
  by_cases hstopped : m.stopped = true
  · rw [if_pos hstopped]
    exact iff_of_true rfl (.inl hstopped)
  rw [if_neg hstopped, or_iff_right hstopped]
  by_cases hreject : m.opcode = iscsiPduReject
  · rw [if_pos hreject]
    exact iff_of_true receiveReject_ok (.inl hreject)
  rw [if_neg hreject, or_iff_right hreject]
  by_cases hexpected : m.opcode ≠ w.expectedResponse m
  · rw [if_pos hexpected]
    exact iff_of_true rfl (.inl hexpected)
  rw [if_neg hexpected, or_iff_right hexpected]
  have hresponse := not_not.1 hexpected
  unfold WaitingPdu.expectedResponse at hresponse
  unfold ReadsInside
  by_cases hlogin : m.opcode = iscsiPduLoginResponse
  · rw [if_pos hlogin, if_pos hlogin]
    exact receiveStrings_ok
  rw [if_neg hlogin, if_neg hlogin]
  by_cases htext : m.opcode = iscsiPduTextResponse
  · rw [if_pos htext, if_pos htext]
    unfold receiveText
    by_cases hflags : m.flags ≠ iscsiPduTextFinal
    · rw [if_pos hflags]
      exact iff_of_true rfl (.inr (.inl hflags))
    · rw [if_neg hflags, or_iff_right hflags]
      exact receiveStrings_ok
  rw [if_neg htext, if_neg htext]
  by_cases hscsi : m.opcode = iscsiPduScsiResponse
  · rw [if_pos hscsi, if_pos hscsi]
    rw [hscsi, if_neg (by decide), if_neg fun h => absurd h.1 (by decide)] at hresponse
    exact receiveScsiReply_ok (htask (.inr (.inl hresponse.symm)))
  rw [if_neg hscsi, if_neg hscsi]
  by_cases hdata : m.opcode = iscsiPduDataIn
  · rw [if_pos hdata, if_pos hdata]
    rw [hdata, if_neg (by decide)] at hresponse
    refine receiveDataIn_ok (htask (.inr ?_))
    by_cases hcommand : w.responseOpcode = iscsiPduScsiResponse
    · exact .inl hcommand
    · rw [if_neg fun h => hcommand h.2] at hresponse
      exact .inr hresponse.symm
  rw [if_neg hdata, if_neg hdata]
  by_cases hnop : m.opcode = iscsiPduNopIn
  · rw [if_pos hnop, if_pos hnop]
    unfold receiveNopIn
    cases w.callback with
    | true =>
      rw [if_pos rfl, readBuffer_ok]
      exact (or_iff_left fun h => by cases h).symm
    | false => exact iff_of_true rfl (.inr rfl)
  · rw [if_neg hnop, if_neg hnop]
    exact iff_of_true rfl (.inr trivial)

end

/-- **In every state that is reached, no check fails exactly for the messages that are safe.** -/
theorem iserReceive_iff {s : IserReceiver}
    (hrun : Run (fun op s s' => s' = IserReceiver.step s op) {} s) (m : IserMessage) :
    iserReceive s m = .ok () ↔ ReceiveSafe s m := by
  unfold iserReceive ReceiveSafe
  by_cases hunsolicited : m.unsolicited = true
  · rw [if_pos hunsolicited]
    exact iff_of_true rfl (.inl hunsolicited)
  rw [if_neg hunsolicited, or_iff_right hunsolicited]
  cases hfind : s.waitpdu.find? (·.itt = m.itt) with
  | none =>
    refine iff_of_false (fun h => by cases h) ?_
    rintro ⟨w, hw, -⟩
    cases hw
  | some w =>
    have htasked := IserReceiver.tasked hrun w (List.mem_of_find?_eq_some hfind)
    have hall : (∃ w', some w = some w' ∧ w'.desc ≠ none ∧ (m.stopped = true ∨
        m.opcode = iscsiPduReject ∨ m.opcode ≠ w'.expectedResponse m ∨ ReadsInside s w' m)) ↔
        w.desc ≠ none ∧ receiveMatched s w m = .ok () := by
      rw [receiveMatched_ok htasked]
      constructor
      · rintro ⟨w', heq, h⟩
        obtain rfl := Option.some.inj heq
        exact h
      · intro h
        exact ⟨w, rfl, h⟩
    rw [hall]
    cases hdesc : w.desc with
    | none =>
      refine iff_of_false (fun h => ?_) fun h => h.1 rfl
      simp only [hdesc] at h
      cases h
    | some isRead =>
      simp only [hdesc]
      rw [and_iff_right (Option.some_ne_none isRead)]
      cases isRead with
      | false => rfl
      | true =>
        obtain ⟨task, htask⟩ := Option.ne_none_iff_exists'.1 (htasked (.inl hdesc))
        unfold WaitingPdu.useTask
        rw [htask]
        rfl

/-- A Login Response without data, in a receive descriptor, for a login PDU that waits for it. -/
theorem iserReceive_login :
    iserReceive (IserReceiver.step {} (.sendOther 7 iscsiPduLoginResponse none true true))
      ⟨0x23 :: List.replicate 18 0 ++ 7 :: List.replicate 28 0, List.replicate 128 0,
        .inr List.length_replicate, false, true⟩ = .ok () := by
  refine (iserReceive_iff (.tail .refl
    ⟨.sendOther 7 iscsiPduLoginResponse none true true, rfl⟩) _).2 (.inr ?_)
  refine ⟨⟨7, iscsiPduLoginResponse, some false, none, true⟩, by decide, Option.some_ne_none _,
    .inr (.inr (.inr (.inl ?_)))⟩
  have hsize :
      iscsiGetPduDataSize (0x23 :: List.replicate 18 0 ++ 7 :: List.replicate 28 0) = 0 := by
    decide
  exact hsize.le.trans (Nat.zero_le _)

/-- A REJECT has an ITT for which no PDU waits. -/
theorem reject_notReceived : ¬∀ s, Run (fun op s s' => s' = IserReceiver.step s op) {} s →
    ∀ m, iserReceive s m = .ok () := by
  intro h
  have hok := h {} .refl ⟨0x3f :: List.replicate 47 0xff, List.replicate 8192 0,
    .inl List.length_replicate, false, true⟩
  cases hok

end Libiscsi
