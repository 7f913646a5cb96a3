import Libiscsi.CancelSpec
import Libiscsi.Lib.Run
import Libiscsi.Write

/-!
# What writing to the socket changes

While a PDU is being sent only that PDU, the cursors of the vectors of its task, the outcomes of
`send` that are left and the trace change (`Sending`); each stage of `writeCurrent` does no more
than that, and the last one is `writeDone`. A call of `iscsi_write_to_socket` is then a run of
three kinds of steps: the head of `outqueue` is taken, the PDU is sent, the PDU is done
(`iscsiWriteToSocket_run`).
-/

namespace Libiscsi

/-! ## The system call -/

/-- The events of a `send` of the bytes. -/
def SysResult.events (a : Addr) (bytes : List UInt8) : SysResult → List Event
  | .count n => [.sent a (bytes.take n)]
  | _ => []

/-- A `send` changes the outcomes that are left and the trace, and accepts no more bytes than it
was given. -/
theorem sysSend_spec {w w' : World} {a : Addr} {bytes : List UInt8} {r : SysResult}
    (h : sysSend w a bytes = (r, w')) :
    w' = { w with sends := w'.sends, trace := w.trace ++ r.events a bytes } ∧
      ∀ n, r = .count n → n ≤ bytes.length ∧ (bytes ≠ [] → 0 < n) := by
  unfold sysSend at h
  rcases hs : w.sends with _ | ⟨s, sends⟩
  · rw [hs] at h
    obtain ⟨rfl, rfl⟩ := Prod.mk.inj h
    exact ⟨by simp [SysResult.events], by simp⟩
  rw [hs] at h
  cases s with
  | again =>
    obtain ⟨rfl, rfl⟩ := Prod.mk.inj h
    exact ⟨by simp [SysResult.events], by simp⟩
  | error =>
    obtain ⟨rfl, rfl⟩ := Prod.mk.inj h
    exact ⟨by simp [SysResult.events], by simp⟩
  | accepted more =>
    obtain ⟨rfl, rfl⟩ := Prod.mk.inj h
    refine ⟨rfl, ?_⟩
    rintro n hn
    obtain rfl := SysResult.count.inj hn
    refine ⟨Nat.min_le_right _ _, fun hb => ?_⟩
    have := List.length_pos_of_ne_nil hb
    omega

/-! ## The frame of the stages -/

/-- `q` is `p` with more of it sent. -/
def Pdu.SentAs (p q : Pdu) : Prop :=
  ∃ n, q = { p with
    outdata := p.outdata ++ List.replicate n 0
    outdataWritten := q.outdataWritten
    payloadWritten := q.payloadWritten
    calculatedDataDigest := q.calculatedDataDigest
    outdataDigestComputed := q.outdataDigestComputed }

protected theorem Pdu.SentAs.refl (p : Pdu) : p.SentAs p := ⟨0, by simp⟩

/-- The buffer is padded. -/
theorem Pdu.SentAs.pad (p : Pdu) (n : Nat) :
    p.SentAs { p with outdata := p.outdata ++ List.replicate n 0 } := ⟨n, rfl⟩

protected theorem Pdu.SentAs.trans {p q r : Pdu} (h : p.SentAs q) (h' : q.SentAs r) :
    p.SentAs r := by
  obtain ⟨n, h⟩ := h
  obtain ⟨m, h'⟩ := h'
  refine ⟨n + m, h'.trans ?_⟩
  rw [h]
  simp

/-- More of the PDU is sent. -/
theorem Pdu.SentAs.progress (p : Pdu) (outdataWritten payloadWritten : Nat)
    (calculatedDataDigest : UInt32) (outdataDigestComputed : Bool) :
    p.SentAs { p with
      outdataWritten, payloadWritten, calculatedDataDigest, outdataDigestComputed } :=
  ⟨0, by simp⟩

/-- What changes while the PDU at `a` is being sent. -/
structure Sending (a : Addr) (w w' : World) : Prop where
  frame : w' = { w.put w.iscsi w'.pdus w'.tasks w'.trace with sends := w'.sends }
  pdu : ∃ p q, w.pdus a = some p ∧ w'.pdus = Function.update w.pdus a (some q) ∧ p.SentAs q
  tasks : ∀ t, ∃ iovectorOut, w'.tasks t = { w.tasks t with iovectorOut }
  trace : ∃ sent : List (List UInt8), w'.trace = w.trace ++ sent.map (Event.sent a)

namespace Sending

variable {a : Addr} {w w' w'' : World}

/-- Nothing is sent. -/
protected theorem refl {p : Pdu} (hp : w.pdus a = some p) : Sending a w w where
  frame := rfl
  pdu := ⟨p, p, hp, (Function.update_eq_self_iff.2 hp.symm).symm, .refl p⟩
  tasks _ := ⟨_, rfl⟩
  trace := ⟨[], by simp⟩

protected theorem trans (h : Sending a w w') (h' : Sending a w' w'') : Sending a w w'' where
  frame := by
    refine h'.frame.trans ?_
    rw [h.frame]
    rfl
  pdu := by
    obtain ⟨p, q, hp, hq, hpq⟩ := h.pdu
    obtain ⟨q', r, hq', hr, hqr⟩ := h'.pdu
    rw [hq, Function.update_self, Option.some.injEq] at hq'
    subst hq'
    exact ⟨p, r, hp, by rw [hr, hq, Function.update_idem], hpq.trans hqr⟩
  tasks t := by
    obtain ⟨i, h⟩ := h.tasks t
    obtain ⟨j, h'⟩ := h'.tasks t
    exact ⟨j, by rw [h', h]⟩
  trace := by
    obtain ⟨l, h⟩ := h.trace
    obtain ⟨l', h'⟩ := h'.trace
    exact ⟨l ++ l', by rw [h', h, List.map_append, List.append_assoc]⟩

theorem iscsi (h : Sending a w w') : w'.iscsi = w.iscsi := by rw [h.frame]; rfl

theorem olds (h : Sending a w w') : w'.olds = w.olds := by rw [h.frame]; rfl

theorem brk (h : Sending a w w') : w'.brk = w.brk := by rw [h.frame]; rfl

theorem now (h : Sending a w w') : w'.now = w.now := by rw [h.frame]; rfl

theorem allocs (h : Sending a w w') : w'.allocs = w.allocs := by rw [h.frame]; rfl

theorem mem (h : Sending a w w') : w'.mem = w.mem := by rw [h.frame]; rfl

theorem of_ne (h : Sending a w w') {b : Addr} (hb : b ≠ a) : w'.pdus b = w.pdus b := by
  obtain ⟨p, q, _, hq, _⟩ := h.pdu
  rw [hq, Function.update_of_ne hb]

/-- The PDU is stored with more of it sent. -/
theorem setPdu {p q : Pdu} (hp : w.pdus a = some p) (hq : p.SentAs q) :
    Sending a w (w.setPdu a q) where
  frame := rfl
  pdu := ⟨p, q, hp, rfl, hq⟩
  tasks _ := ⟨_, rfl⟩
  trace := ⟨[], by simp⟩

/-- The cursor of a vector is moved. -/
theorem modifyTask {p : Pdu} (hp : w.pdus a = some p) (t : TaskPtr) (iov : ScsiIovector) :
    Sending a w (w.modifyTask t fun task => { task with iovectorOut := iov }) where
  frame := rfl
  pdu := ⟨p, p, hp, (Function.update_eq_self_iff.2 hp.symm).symm, .refl p⟩
  tasks t' := by
    by_cases h : t' = t
    · subst h
      exact ⟨_, Function.update_self ..⟩
    · exact ⟨_, Function.update_of_ne h ..⟩
  trace := ⟨[], by simp⟩

/-- Bytes of the PDU are handed to the socket. -/
theorem sysSend {p : Pdu} (hp : w.pdus a = some p) {bytes : List UInt8} {r : SysResult}
    (h : sysSend w a bytes = (r, w')) : Sending a w w' where
  frame := by
    refine (sysSend_spec h).1.trans ?_
    rw [(sysSend_spec h).1]
    rfl
  pdu := by
    refine ⟨p, p, hp, ?_, .refl p⟩
    rw [Function.update_eq_self_iff.2 hp.symm, (sysSend_spec h).1]
  tasks _ := ⟨_, by rw [(sysSend_spec h).1]⟩
  trace := by
    have ht : w'.trace = w.trace ++ r.events a bytes := by rw [(sysSend_spec h).1]
    cases r with
    | count n => exact ⟨[bytes.take n], ht⟩
    | again => exact ⟨[], ht⟩
    | error => exact ⟨[], ht⟩

end Sending

/-- The address of a live PDU stays the address of the PDU. -/
theorem pdus_of_sysSend {w w' : World} {a b : Addr} {bytes : List UInt8} {r : SysResult}
    (h : sysSend w a bytes = (r, w')) : w'.pdus b = w.pdus b := by
  rw [(sysSend_spec h).1]

/-! ## The stages -/

section
variable {a : Addr} {w w' : World} {r : Option Int}

/-- A stage and what follows it. -/
theorem andThen_eq_ok {x : Res (Option Int × World)} {f : World → Res (Option Int × World)}
    (h : andThen x f = .ok (r, w')) :
    (∃ s, r = some s ∧ x = .ok (some s, w')) ∨ ∃ w₁, x = .ok (none, w₁) ∧ f w₁ = .ok (r, w') := by
  unfold andThen at h
  obtain ⟨⟨s, w₁⟩, hx, h⟩ := Outcome.bind_eq_ok.1 h
  cases s with
  | some s =>
    obtain ⟨rfl, rfl⟩ := Prod.mk.inj (Except.ok.inj h)
    exact .inl ⟨s, rfl, hx⟩
  | none => exact .inr ⟨w₁, hx, h⟩

theorem writeHeader_sending (h : writeHeader w a = .ok (r, w')) : Sending a w w' := by
  unfold writeHeader at h
  obtain ⟨p, hp, h⟩ := Outcome.bind_eq_ok.1 h
  rw [World.deref_eq_ok] at hp
  simp only at h
  set q : Pdu := { p with
    outdata := p.outdata ++ List.replicate (pad4 p.outdata.length - p.outdata.length) 0 } with hq
  have hpad : Sending a w (w.setPdu a q) := .setPdu hp (.pad p _)
  have hq' : (w.setPdu a q).pdus a = some q := Function.update_self ..
  split at h
  · rcases hs : sysSend (w.setPdu a q) a (q.outdata.drop q.outdataWritten) with ⟨s, w₁⟩
    have hsend := hpad.trans (.sysSend hq' hs)
    have hq₁ : w₁.pdus a = some q := (pdus_of_sysSend hs).trans hq'
    rw [hs] at h
    cases s with
    | count n =>
      obtain ⟨_, rfl⟩ := Prod.mk.inj (Except.ok.inj h)
      exact hsend.trans (.setPdu hq₁ (.progress ..))
    | again =>
      obtain ⟨_, rfl⟩ := Prod.mk.inj (Except.ok.inj h)
      exact hsend
    | error =>
      obtain ⟨_, rfl⟩ := Prod.mk.inj (Except.ok.inj h)
      exact hsend
  · obtain ⟨_, rfl⟩ := Prod.mk.inj (Except.ok.inj h)
    exact hpad

theorem digestOutdata_sending (h : digestOutdata w a = .ok w') : Sending a w w' := by
  unfold digestOutdata at h
  obtain ⟨p, hp, h⟩ := Outcome.bind_eq_ok.1 h
  rw [World.deref_eq_ok] at hp
  split at h
  · obtain rfl := Except.ok.inj h
    exact .setPdu hp (.progress ..)
  · obtain rfl := Except.ok.inj h
    exact .refl hp

/-- The vector of the task is handed to the socket. -/
theorem writevPayload_sending {p : Pdu} {t : TaskPtr} {bytes : List UInt8} {s : SysResult}
    (hp : w.pdus a = some p) (h : writevPayload w a p t = (bytes, s, w')) :
    Sending a w w' ∧ w'.pdus a = some p := by
  unfold writevPayload at h
  simp only at h
  rcases hsel : iovectorSelect (w.tasks t).iovectorOut
    ((p.payloadOffset + p.payloadWritten) % 2 ^ 32) (p.payloadLen - p.payloadWritten) with
    ⟨iov, _ | sel⟩
  · rw [hsel] at h
    obtain ⟨_, h⟩ := Prod.mk.inj h
    obtain ⟨_, rfl⟩ := Prod.mk.inj h
    exact ⟨.modifyTask hp t iov, hp⟩
  · rw [hsel] at h
    simp only at h
    obtain ⟨rfl, hsys⟩ := Prod.mk.inj h
    have hmod : Sending a w (w.modifyTask t fun task => { task with iovectorOut := iov }) :=
      .modifyTask hp t iov
    exact ⟨hmod.trans (.sysSend hp hsys), (pdus_of_sysSend hsys).trans hp⟩

theorem payloadTurn_sending {p : Pdu} (hp : w.pdus a = some p)
    (h : payloadTurn w a p = .ok (r, w')) : Sending a w w' := by
  unfold payloadTurn at h
  rcases ht : p.scsiCbdata.task with _ | t
  · rw [ht] at h
    cases h
  rw [ht] at h
  simp only at h
  split at h
  · obtain ⟨_, rfl⟩ := Prod.mk.inj (Except.ok.inj h)
    exact .refl hp
  rcases hv : writevPayload w a p t with ⟨bytes, s, w₁⟩
  obtain ⟨hsend, hp₁⟩ := writevPayload_sending hp hv
  rw [hv] at h
  cases s with
  | count n =>
    obtain ⟨_, rfl⟩ := Prod.mk.inj (Except.ok.inj h)
    exact hsend.trans (.setPdu hp₁ (.progress ..))
  | again =>
    obtain ⟨_, rfl⟩ := Prod.mk.inj (Except.ok.inj h)
    exact hsend
  | error =>
    obtain ⟨_, rfl⟩ := Prod.mk.inj (Except.ok.inj h)
    exact hsend

theorem writePayload_sending : ∀ {fuel : Nat} {w : World},
    writePayload fuel w a = .ok (r, w') → Sending a w w'
  | 0, _, h => by cases h
  | fuel + 1, w, h => by
    unfold writePayload at h
    obtain ⟨p, hp, h⟩ := Outcome.bind_eq_ok.1 h
    rw [World.deref_eq_ok] at hp
    split at h
    · obtain ⟨_, _, ht⟩ | ⟨w₁, ht, h⟩ := andThen_eq_ok h
      · exact payloadTurn_sending hp ht
      · exact (payloadTurn_sending hp ht).trans (writePayload_sending h)
    · obtain ⟨_, rfl⟩ := Prod.mk.inj (Except.ok.inj h)
      exact .refl hp

theorem writePadding_sending (h : writePadding w a = .ok (r, w')) : Sending a w w' := by
  unfold writePadding at h
  obtain ⟨p, hp, h⟩ := Outcome.bind_eq_ok.1 h
  rw [World.deref_eq_ok] at hp
  simp only at h
  split at h
  · rcases hs : sysSend w a (List.replicate (pad4 p.payloadLen - p.payloadWritten) 0) with ⟨s, w₁⟩
    have hsend : Sending a w w₁ := .sysSend hp hs
    have hp₁ : w₁.pdus a = some p := (pdus_of_sysSend hs).trans hp
    rw [hs] at h
    cases s with
    | count n =>
      obtain ⟨_, rfl⟩ := Prod.mk.inj (Except.ok.inj h)
      exact hsend.trans (.setPdu hp₁ (.progress ..))
    | again =>
      obtain ⟨_, rfl⟩ := Prod.mk.inj (Except.ok.inj h)
      exact hsend
    | error =>
      obtain ⟨_, rfl⟩ := Prod.mk.inj (Except.ok.inj h)
      exact hsend
  · obtain ⟨_, rfl⟩ := Prod.mk.inj (Except.ok.inj h)
    exact .refl hp

theorem writeDigest_sending (h : writeDigest w a = .ok (r, w')) : Sending a w w' := by
  unfold writeDigest at h
  obtain ⟨p, hp, h⟩ := Outcome.bind_eq_ok.1 h
  rw [World.deref_eq_ok] at hp
  simp only at h
  split at h
  · split at h
    · rcases hs : sysSend w a ((digestBytes (crc32cChainDone p.calculatedDataDigest)).drop
        (iscsiDigestSize - (pad4 p.payloadLen + iscsiDigestSize - p.payloadWritten))) with ⟨s, w₁⟩
      have hsend : Sending a w w₁ := .sysSend hp hs
      have hp₁ : w₁.pdus a = some p := (pdus_of_sysSend hs).trans hp
      rw [hs] at h
      cases s with
      | count n =>
        obtain ⟨_, rfl⟩ := Prod.mk.inj (Except.ok.inj h)
        exact hsend.trans (.setPdu hp₁ (.progress ..))
      | again =>
        obtain ⟨_, rfl⟩ := Prod.mk.inj (Except.ok.inj h)
        exact hsend
      | error =>
        obtain ⟨_, rfl⟩ := Prod.mk.inj (Except.ok.inj h)
        exact hsend
    · obtain ⟨_, rfl⟩ := Prod.mk.inj (Except.ok.inj h)
      exact .refl hp
  · obtain ⟨_, rfl⟩ := Prod.mk.inj (Except.ok.inj h)
    exact .refl hp

/-- One turn of the loop: the PDU is being sent, or it was sent to its end and is done. -/
theorem writeCurrent_cases (h : writeCurrent w a = .ok (r, w')) :
    (∃ s, r = some s ∧ Sending a w w') ∨
      r = none ∧ ∃ w₁, Sending a w w₁ ∧ writeDone w₁ a = .ok w' := by
  unfold writeCurrent at h
  obtain ⟨s, rfl, h₁⟩ | ⟨w₁, h₁, h⟩ := andThen_eq_ok h
  · exact .inl ⟨s, rfl, writeHeader_sending h₁⟩
  have hs₁ := writeHeader_sending h₁
  obtain ⟨w₂, h₂, h⟩ := Outcome.bind_eq_ok.1 h
  have hs₂ := hs₁.trans (digestOutdata_sending h₂)
  obtain ⟨p, _, h⟩ := Outcome.bind_eq_ok.1 h
  obtain ⟨s, rfl, h₃⟩ | ⟨w₃, h₃, h⟩ := andThen_eq_ok h
  · exact .inl ⟨s, rfl, hs₂.trans (writePayload_sending h₃)⟩
  have hs₃ := hs₂.trans (writePayload_sending h₃)
  obtain ⟨s, rfl, h₄⟩ | ⟨w₄, h₄, h⟩ := andThen_eq_ok h
  · exact .inl ⟨s, rfl, hs₃.trans (writePadding_sending h₄)⟩
  have hs₄ := hs₃.trans (writePadding_sending h₄)
  obtain ⟨s, rfl, h₅⟩ | ⟨w₅, h₅, h⟩ := andThen_eq_ok h
  · exact .inl ⟨s, rfl, hs₄.trans (writeDigest_sending h₅)⟩
  obtain ⟨w₆, h₆, h⟩ := Outcome.bind_eq_ok.1 h
  obtain ⟨rfl, rfl⟩ := Prod.mk.inj (Except.ok.inj h)
  exact .inr ⟨rfl, w₅, hs₄.trans (writeDigest_sending h₅), h₆⟩

end

/-! ## Taking the head of the queue -/

/-- `q` is `p` as it is sent: the header acknowledges the statuses received, and has its digest. -/
def Pdu.TakenAs (c : Context) (p q : Pdu) : Prop := (p.stamped c).digested c = some q

namespace Pdu.TakenAs

variable {c : Context} {p q : Pdu}

/-- A PDU that is taken differs in bytes of its header, of which those before the ExpStatSN are
the same. -/
theorem spec (h : p.TakenAs c q) :
    q = { p with outdata := q.outdata } ∧ q.outdata.length = p.outdata.length ∧
      ∀ j < 28, byte q.outdata j = byte p.outdata j := by
  have hbyte : ∀ j < 28, byte (p.stamped c).outdata j = byte p.outdata j := fun j hj =>
    byte_scsiSetUint32 (.inl hj)
  have hlen : (p.stamped c).outdata.length = p.outdata.length := length_scsiSetUint32 ..
  unfold TakenAs digested at h
  split at h
  · obtain rfl := Option.some.inj h
    exact ⟨rfl, hlen, hbyte⟩
  · unfold iscsiPduUpdateHeaderdigest at h
    split at h
    · cases h
    rename_i hsize
    obtain rfl := Option.some.inj h
    have hroom : 52 ≤ (p.stamped c).outdata.length := by
      simp only [iscsiRawHeaderSize, iscsiDigestSize] at hsize
      omega
    refine ⟨rfl, ?_, fun j hj => ?_⟩
    · simp only [List.length_append, List.length_take, List.length_drop, iscsiRawHeaderSize,
        iscsiDigestSize, digestBytes, List.length_cons, List.length_nil] at hroom ⊢
      omega
    · rw [← hbyte j hj]
      simp only [byte, List.getD_eq_getElem?_getD, List.append_assoc]
      rw [List.getElem?_append_left (by simp [iscsiRawHeaderSize]; omega),
        List.getElem?_take_of_lt (by simp [iscsiRawHeaderSize]; omega)]

theorem cmdsn (h : p.TakenAs c q) : q.cmdsn = p.cmdsn := by rw [h.spec.1]

theorem flags (h : p.TakenAs c q) : q.flags = p.flags := by rw [h.spec.1]

theorem scsiTimeout (h : p.TakenAs c q) : q.scsiTimeout = p.scsiTimeout := by rw [h.spec.1]

theorem length (h : p.TakenAs c q) : q.outdata.length = p.outdata.length := h.spec.2.1

theorem isCommand (h : p.TakenAs c q) : q.isCommand = p.isCommand := by
  simp [Pdu.isCommand, Pdu.immediate, Pdu.opcode, h.spec.2.2 0]

/-- The CmdSN in the header is not changed. -/
theorem cmdsnField (h : p.TakenAs c q) :
    scsiGetUint32 q.outdata 24 = scsiGetUint32 p.outdata 24 := by
  simp [scsiGetUint32, h.spec.2.2]

end Pdu.TakenAs

/-- The world after a PDU was taken. -/
def World.taken (w : World) (a : Addr) (q : Pdu) : World :=
  w.put
    (((w.iscsi.setOutqueue (w.iscsi.outqueue.erase a)).setWaitpdu
      (if q.hasFlag iscsiPduDeleteWhenSent then w.iscsi.waitpdu
        else w.iscsi.waitpdu ++ [a])).setOutqueueCurrent (some a))
    (Function.update w.pdus a (some q)) w.tasks (w.trace ++ [.taken a q])

section
variable (w : World) (a : Addr) (q : Pdu)

@[simp] theorem World.taken_olds : (w.taken a q).olds = w.olds := by simp [World.taken]

@[simp] theorem World.taken_brk : (w.taken a q).brk = w.brk := by simp [World.taken]

@[simp] theorem World.taken_now : (w.taken a q).now = w.now := by simp [World.taken]

@[simp] theorem World.taken_trace : (w.taken a q).trace = w.trace ++ [.taken a q] := by
  simp [World.taken]

@[simp] theorem World.taken_cmdsn : (w.taken a q).iscsi.cmdsn = w.iscsi.cmdsn := by
  simp [World.taken]

@[simp] theorem World.taken_headerDigest :
    (w.taken a q).iscsi.headerDigest = w.iscsi.headerDigest := by
  simp [World.taken]

@[simp] theorem World.taken_outqueueCurrent :
    (w.taken a q).iscsi.outqueueCurrent = some a := by
  simp [World.taken]

@[simp] theorem World.taken_outqueue :
    (w.taken a q).iscsi.outqueue = w.iscsi.outqueue.erase a := by
  simp [World.taken]

/-- A PDU that was taken waits for a response, or is freed when it has been sent. -/
theorem World.taken_waitpdu : (w.taken a q).iscsi.waitpdu =
    if q.hasFlag iscsiPduDeleteWhenSent then w.iscsi.waitpdu else w.iscsi.waitpdu ++ [a] := by
  simp [World.taken]

@[simp] theorem World.taken_pdus :
    (w.taken a q).pdus = Function.update w.pdus a (some q) := by
  simp [World.taken]

end

section
variable {w : World} {a : Addr} {q : Pdu} {rest : List Addr}

/-- The other PDUs are as they were. -/
theorem World.taken_pdus_ne {b : Addr} (hb : b ≠ a) : (w.taken a q).pdus b = w.pdus b := by
  rw [World.taken_pdus, Function.update_of_ne hb]

/-- The head of `outqueue` waits from then on, unless it is freed when it has been sent. -/
theorem World.taken_waits :
    (w.taken a q).iscsi.waitpdu = w.iscsi.waitpdu ∧ q.hasFlag iscsiPduDeleteWhenSent = true ∨
      (w.taken a q).iscsi.waitpdu = w.iscsi.waitpdu ++ [a] ∧
        q.hasFlag iscsiPduDeleteWhenSent = false := by
  rw [World.taken_waitpdu]
  cases q.hasFlag iscsiPduDeleteWhenSent with
  | true => exact .inl ⟨rfl, rfl⟩
  | false => exact .inr ⟨rfl, rfl⟩

/-- What is queued after it was queued before. -/
theorem World.mem_of_taken (hq : w.iscsi.outqueue = a :: rest) {b : Addr}
    (hb : b ∈ rest ++ (w.taken a q).iscsi.waitpdu) :
    b ∈ w.iscsi.outqueue ++ w.iscsi.waitpdu := by
  rw [hq]
  rcases List.mem_append.1 hb with hb | hb
  · exact List.mem_append_left _ (List.mem_cons_of_mem _ hb)
  · rcases @World.taken_waits w a q with ⟨heq, -⟩ | ⟨heq, -⟩
    · exact List.mem_append_right _ (heq ▸ hb)
    · rw [heq, List.mem_append, List.mem_singleton] at hb
      rcases hb with hb | rfl
      · exact List.mem_append_right _ hb
      · exact List.mem_append_left _ List.mem_cons_self

/-- No PDU is queued twice. -/
theorem World.nodup_taken (hq : w.iscsi.outqueue = a :: rest)
    (hnd : (w.iscsi.outqueue ++ w.iscsi.waitpdu).Nodup) :
    (rest ++ (w.taken a q).iscsi.waitpdu).Nodup := by
  rw [hq, List.cons_append] at hnd
  rcases @World.taken_waits w a q with ⟨heq, -⟩ | ⟨heq, -⟩
  · rw [heq]
    exact (List.nodup_cons.1 hnd).2
  · rw [heq, ← List.append_assoc]
    exact (List.perm_append_singleton ..).nodup_iff.2 hnd

/-- The addresses of the context are those it had. -/
theorem World.mem_addrs_of_taken (hq : w.iscsi.outqueue = a :: rest) {b : Addr}
    (hb : b ∈ (w.taken a q).iscsi.addrs) : b ∈ w.iscsi.addrs := by
  have hout : (w.taken a q).iscsi.outqueue = rest := by
    rw [World.taken_outqueue, hq, List.erase_cons_head]
  rcases List.mem_append.1 hb with hb | hb
  · rw [hout] at hb
    exact List.mem_append_left _ (World.mem_of_taken hq hb)
  · rw [World.taken_outqueueCurrent] at hb
    obtain rfl : b = a := by simpa [eq_comm] using hb
    exact List.mem_append_left _ (List.mem_append_left _ (hq ▸ List.mem_cons_self))

end

/-- What becomes of the head of the queue: nothing, it is taken, or, where its header has no room
for the digest, it becomes `outqueue_current` and stays in the queue. -/
theorem takeHead_cases {a : Addr} {w w' : World} {r : Option Int}
    (h : takeHead w a = .ok (r, w')) :
    r ≠ none ∧ w' = w ∨
      ∃ p, w.pdus a = some p ∧
        (r ≠ none ∧ w.iscsi.headerDigest ≠ .none ∧
            p.outdata.length < iscsiRawHeaderSize + iscsiDigestSize ∧
            w' = (w.modify (·.setOutqueueCurrent (some a))).setPdu a (p.stamped w.iscsi) ∨
          r = none ∧ ∃ q, p.TakenAs w.iscsi q ∧ w' = w.taken a q) := by
  unfold takeHead at h
  split at h
  · obtain ⟨rfl, rfl⟩ := Prod.mk.inj (Except.ok.inj h)
    exact .inl ⟨by simp, rfl⟩
  obtain ⟨p, hp, h⟩ := Outcome.bind_eq_ok.1 h
  rw [World.deref_eq_ok] at hp
  split at h
  · obtain ⟨rfl, rfl⟩ := Prod.mk.inj (Except.ok.inj h)
    exact .inl ⟨by simp, rfl⟩
  split at h
  · obtain ⟨rfl, rfl⟩ := Prod.mk.inj (Except.ok.inj h)
    exact .inl ⟨by simp, rfl⟩
  refine .inr ⟨p, hp, ?_⟩
  -- the digests and the StatSN are those of the context before the PDU is current
  have hstamp : p.stamped (w.modify (·.setOutqueueCurrent (some a))).iscsi = p.stamped w.iscsi :=
    rfl
  simp only [hstamp] at h
  have hdig : (p.stamped w.iscsi).digested
      ((w.modify (·.setOutqueueCurrent (some a))).setPdu a (p.stamped w.iscsi)).iscsi =
      (p.stamped w.iscsi).digested w.iscsi := rfl
  rw [hdig] at h
  rcases hq : (p.stamped w.iscsi).digested w.iscsi with _ | q
  · rw [hq] at h
    obtain ⟨rfl, rfl⟩ := Prod.mk.inj (Except.ok.inj h)
    refine .inl ⟨by simp, ?_⟩
    unfold Pdu.digested iscsiPduUpdateHeaderdigest at hq
    split at hq
    · cases hq
    rename_i hd
    split at hq
    · rename_i hsize
      exact ⟨hd, by simpa [Pdu.stamped, Pdu.setExpstatsn, Pdu.setField] using hsize, rfl⟩
    · cases hq
  · rw [hq] at h
    obtain ⟨outqueue, hrem, h⟩ := Outcome.bind_eq_ok.1 h
    obtain ⟨rfl, rfl⟩ := Prod.mk.inj (Except.ok.inj h)
    refine .inr ⟨rfl, q, hq, ?_⟩
    rw [(listRemove_eq_ok.1 hrem).2]
    simp [World.taken, World.log, World.modify, World.setPdu, World.put]

/-! ## The steps of a call -/

/-- The steps of `iscsi_write_to_socket`. -/
inductive WriteAct where
  /-- The head of `outqueue` is looked at, and becomes `outqueue_current` if it may. -/
  | take (a : Addr)
  /-- Bytes of `outqueue_current` are sent. -/
  | sending (a : Addr)
  /-- All of `outqueue_current` has been sent. -/
  | done (a : Addr)

/-- What the steps do. -/
inductive WriteStep : WriteAct → World → World → Prop where
  | take {w w' : World} {a : Addr} {rest : List Addr} {r : Option Int}
      (hcur : w.iscsi.outqueueCurrent = none) (hq : w.iscsi.outqueue = a :: rest)
      (h : takeHead w a = .ok (r, w')) : WriteStep (.take a) w w'
  | sending {w w' : World} {a : Addr} (hcur : w.iscsi.outqueueCurrent = some a)
      (h : Sending a w w') : WriteStep (.sending a) w w'
  | done {w w' : World} {a : Addr} (hcur : w.iscsi.outqueueCurrent = some a)
      (h : writeDone w a = .ok w') : WriteStep (.done a) w w'

/-- A turn for the PDU being sent is a run of steps. -/
theorem writeCurrent_run {a : Addr} {w w' : World} {r : Option Int}
    (hcur : w.iscsi.outqueueCurrent = some a) (h : writeCurrent w a = .ok (r, w')) :
    Run WriteStep w w' := by
  obtain ⟨s, _, hs⟩ | ⟨_, w₁, hs, hd⟩ := writeCurrent_cases h
  · exact Run.single (.sending hcur hs)
  · exact (Run.single (WriteStep.sending hcur hs)).tail
      ⟨.done a, .done (by rw [hs.iscsi, hcur]) hd⟩

/-- A PDU that was taken is `outqueue_current`. -/
theorem takeHead_current {a : Addr} {w w' : World} (h : takeHead w a = .ok (none, w')) :
    w'.iscsi.outqueueCurrent = some a := by
  obtain ⟨hr, _⟩ | ⟨p, _, ⟨hr, _⟩ | ⟨_, q, _, rfl⟩⟩ := takeHead_cases h
  · exact absurd rfl hr
  · exact absurd rfl hr
  · rfl

theorem writeLoop_run : ∀ {fuel : Nat} {w w' : World} {r : Int},
    writeLoop fuel w = .ok (r, w') → Run WriteStep w w'
  | 0, _, _, _, h => by cases h
  | fuel + 1, w, w', r, h => by
    unfold writeLoop at h
    obtain ⟨⟨s, w₁⟩, h₁, h⟩ := Outcome.bind_eq_ok.1 h
    have hrun : Run WriteStep w w₁ := by
      unfold writeTurn at h₁
      rcases hcur : w.iscsi.outqueueCurrent with _ | a
      · rcases hq : w.iscsi.outqueue with _ | ⟨a, rest⟩
        · rw [hcur, hq] at h₁
          obtain ⟨_, rfl⟩ := Prod.mk.inj (Except.ok.inj h₁)
          exact .refl
        · rw [hcur, hq] at h₁
          obtain ⟨s, _, ht⟩ | ⟨w₂, ht, hc⟩ := andThen_eq_ok h₁
          · exact Run.single (.take hcur hq ht)
          · exact .head ⟨.take a, .take hcur hq ht⟩ (writeCurrent_run (takeHead_current ht) hc)
      · rw [hcur] at h₁
        exact writeCurrent_run hcur h₁
    cases s with
    | some s =>
      obtain ⟨_, rfl⟩ := Prod.mk.inj (Except.ok.inj h)
      exact hrun
    | none => exact hrun.trans (writeLoop_run h)

/-- **A call of `iscsi_write_to_socket` takes, sends and finishes PDUs.** -/
theorem iscsiWriteToSocket_run {w w' : World} {r : Int}
    (h : iscsiWriteToSocket w = .ok (r, w')) : Run WriteStep w w' := by
  unfold iscsiWriteToSocket at h
  split at h
  · obtain ⟨_, rfl⟩ := Prod.mk.inj (Except.ok.inj h)
    exact .refl
  · exact writeLoop_run h

end Libiscsi
