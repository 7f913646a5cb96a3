import Libiscsi.WriteSpec

/-!
# What the transport's service leaves alone

`drv->service` is called in the middle of a submission. It may take, send and finish PDUs and may
unlink and complete what has expired (`ServiceStep`), but it does not change the parameters of the
session, and a PDU that survives it is the same request (`ServiceKeeps`).
-/

namespace Libiscsi

/-- What `drv->service` may do for `POLLOUT`. -/
inductive ServiceAct where
  /-- `iscsi_write_to_socket`. -/
  | write
  /-- `iscsi_timeout_scan`. -/
  | timeoutScan

/-- The steps of `drv->service`. -/
inductive ServiceStep : ServiceAct → World → World → Prop where
  | write {w w' : World} {r : Int} (h : iscsiWriteToSocket w = .ok (r, w')) :
    ServiceStep .write w w'
  | timeoutScan {w w' : World} (h : iscsiTimeoutScan w = .ok w') : ServiceStep .timeoutScan w w'

/-- A `service` that writes to the socket and looks for expired PDUs, as often as it likes. -/
def Serves (service : World → Res World) : Prop :=
  ∀ w w', service w = .ok w' → Run ServiceStep w w'

/-! ## What is kept -/

/-- The context without its queues and its gates. -/
def Context.session (c : Context) : Context :=
  { c with
    outqueue := [], waitpdu := [], outqueueCurrent := none, cmdsn := 0, isCorked := false
    pendingReconnect := false }

section
variable (c : Context) (l : List Addr) (o : Option Addr) (v : UInt32)

@[simp] theorem Context.setOutqueue_session : (c.setOutqueue l).session = c.session := rfl
@[simp] theorem Context.setWaitpdu_session : (c.setWaitpdu l).session = c.session := rfl
@[simp] theorem Context.setOutqueueCurrent_session :
    (c.setOutqueueCurrent o).session = c.session := rfl
@[simp] theorem Context.setCmdsn_session : (c.setCmdsn v).session = c.session := rfl

@[simp] theorem Pdu.callbackContext_session (p : Pdu) :
    (p.callbackContext c).session = c.session := by
  unfold Pdu.callbackContext; split <;> rfl

end

/-- `q` is the request `p`: the two differ in the bytes of the header, the CmdSN and how much has
been sent. -/
def Pdu.SameRequest (p q : Pdu) : Prop :=
  q = { p with
    outdata := q.outdata
    cmdsn := q.cmdsn
    outdataWritten := q.outdataWritten
    payloadWritten := q.payloadWritten
    calculatedDataDigest := q.calculatedDataDigest
    outdataDigestComputed := q.outdataDigestComputed }

namespace Pdu.SameRequest

variable {p q r : Pdu}

protected theorem refl (p : Pdu) : p.SameRequest p := rfl

protected theorem trans (h : p.SameRequest q) (h' : q.SameRequest r) : p.SameRequest r := by
  unfold SameRequest at *
  rw [h', h]

theorem payloadLen (h : p.SameRequest q) : q.payloadLen = p.payloadLen := by rw [h]

theorem expxferlen (h : p.SameRequest q) : q.expxferlen = p.expxferlen := by rw [h]

theorem datasn (h : p.SameRequest q) : q.datasn = p.datasn := by rw [h]

theorem scsiCbdata (h : p.SameRequest q) : q.scsiCbdata = p.scsiCbdata := by rw [h]

theorem itt (h : p.SameRequest q) : q.itt = p.itt := by rw [h]

theorem lun (h : p.SameRequest q) : q.lun = p.lun := by rw [h]

end Pdu.SameRequest

theorem Pdu.Renumbered.sameRequest {p q : Pdu} (h : p.Renumbered q) : p.SameRequest q := by
  rcases h with rfl | h
  · exact .refl _
  · unfold Pdu.SameRequest
    rw [h]
    rfl

theorem Pdu.SentAs.sameRequest {p q : Pdu} (h : p.SentAs q) : p.SameRequest q := by
  obtain ⟨n, h⟩ := h
  unfold Pdu.SameRequest
  rw [h]

theorem Pdu.TakenAs.sameRequest {c : Context} {p q : Pdu} (h : p.TakenAs c q) :
    p.SameRequest q := by
  unfold Pdu.SameRequest
  rw [h.spec.1]

/-- What a run of `service` leaves as it is. -/
structure ServiceKeeps (w w' : World) : Prop where
  olds : w'.olds = w.olds
  now : w'.now = w.now
  brk : w'.brk = w.brk
  allocs : w'.allocs = w.allocs
  mem : w'.mem = w.mem
  session : w'.iscsi.session = w.iscsi.session
  pdus : ∀ a q, w'.pdus a = some q → ∃ p, w.pdus a = some p ∧ p.SameRequest q
  tasks : ∀ t, ∃ status iovectorOut cmdsn itt,
    w'.tasks t = { w.tasks t with status, iovectorOut, cmdsn, itt }

namespace ServiceKeeps

variable {w w' w'' : World} {a : Addr}

protected theorem refl (w : World) : ServiceKeeps w w where
  olds := rfl
  now := rfl
  brk := rfl
  allocs := rfl
  mem := rfl
  session := rfl
  pdus _ q hq := ⟨q, hq, .refl q⟩
  tasks _ := ⟨_, _, _, _, rfl⟩

protected theorem trans (h : ServiceKeeps w w') (h' : ServiceKeeps w' w'') :
    ServiceKeeps w w'' where
  olds := h'.olds.trans h.olds
  now := h'.now.trans h.now
  brk := h'.brk.trans h.brk
  allocs := h'.allocs.trans h.allocs
  mem := h'.mem.trans h.mem
  session := h'.session.trans h.session
  pdus a r hr := by
    obtain ⟨q, hq, hqr⟩ := h'.pdus a r hr
    obtain ⟨p, hp, hpq⟩ := h.pdus a q hq
    exact ⟨p, hp, hpq.trans hqr⟩
  tasks t := by
    obtain ⟨s, i, c, n, h⟩ := h.tasks t
    obtain ⟨s', i', c', n', h'⟩ := h'.tasks t
    exact ⟨s', i', c', n', by rw [h', h]⟩

/-- The segment length of the target, which the session keeps. -/
theorem segment (h : ServiceKeeps w w') : w'.iscsi.targetMaxRecvDataSegmentLength =
    w.iscsi.targetMaxRecvDataSegmentLength :=
  congrArg (·.targetMaxRecvDataSegmentLength) h.session

theorem firstBurst (h : ServiceKeeps w w') : w'.iscsi.firstBurstLength =
    w.iscsi.firstBurstLength :=
  congrArg (·.firstBurstLength) h.session

theorem headerDigest (h : ServiceKeeps w w') : w'.iscsi.headerDigest = w.iscsi.headerDigest :=
  congrArg (·.headerDigest) h.session

/-- A change of the context that keeps the session. -/
theorem modify {f : Context → Context} (hf : (f w.iscsi).session = w.iscsi.session) :
    ServiceKeeps w (w.modify f) where
  olds := rfl
  now := rfl
  brk := rfl
  allocs := rfl
  mem := rfl
  session := hf
  pdus _ q hq := ⟨q, hq, .refl q⟩
  tasks _ := ⟨_, _, _, _, rfl⟩

/-- A PDU is stored as the same request. -/
theorem setPdu {p q : Pdu} (hp : w.pdus a = some p) (hpq : p.SameRequest q) :
    ServiceKeeps w (w.setPdu a q) where
  olds := rfl
  now := rfl
  brk := rfl
  allocs := rfl
  mem := rfl
  session := rfl
  pdus b r hr := by
    by_cases hb : b = a
    · subst hb
      rw [World.setPdu_pdus, Function.update_self, Option.some.injEq] at hr
      exact ⟨p, hp, hr ▸ hpq⟩
    · rw [World.setPdu_pdus, Function.update_of_ne hb] at hr
      exact ⟨r, hr, .refl r⟩
  tasks _ := ⟨_, _, _, _, rfl⟩

/-- The PDU at an address is stored, or removed, and tasks get other statuses, tags and CmdSNs. -/
theorem put {c : Context} {x : Option Pdu} {tasks : TaskPtr → ScsiTask} {trace : List Event}
    (hc : c.session = w.iscsi.session)
    (hx : ∀ q, x = some q → ∃ p, w.pdus a = some p ∧ p.SameRequest q)
    (ht : ∀ t, ∃ status iovectorOut cmdsn itt,
      tasks t = { w.tasks t with status, iovectorOut, cmdsn, itt }) :
    ServiceKeeps w (w.put c (Function.update w.pdus a x) tasks trace) where
  olds := rfl
  now := rfl
  brk := rfl
  allocs := rfl
  mem := rfl
  session := hc
  pdus b q hq := by
    by_cases hb : b = a
    · subst hb
      rw [World.put_pdus, Function.update_self] at hq
      exact hx q hq
    · rw [World.put_pdus, Function.update_of_ne hb] at hq
      exact ⟨q, hq, .refl q⟩
  tasks := ht

theorem called (w : World) (a : Addr) (p : Pdu) (status : Status) :
    ServiceKeeps w (w.called a p status) where
  olds := rfl
  now := rfl
  brk := rfl
  allocs := rfl
  mem := rfl
  session := Pdu.callbackContext_session _ p
  pdus _ q hq := ⟨q, hq, .refl q⟩
  tasks t := by
    obtain ⟨s, h⟩ := Pdu.callbackTasks_eq p status w.tasks t
    exact ⟨s, _, _, _, h⟩

theorem release (w : World) (a : Addr) : ServiceKeeps w (w.release a) := by
  unfold World.release
  exact .put (by simp) (by simp) fun _ => ⟨_, _, _, _, rfl⟩

theorem completePdu {status : Status} (h : completePdu w a status = .ok w') :
    ServiceKeeps w w' := by
  unfold Libiscsi.completePdu at h
  obtain ⟨w₁, h₁, h₂⟩ := Outcome.bind_eq_ok.1 h
  obtain ⟨p, _, rfl⟩ := invokeCallback_called h₁
  obtain ⟨_, rfl⟩ := iscsiFreePdu_eq_ok.1 h₂
  exact (called w a p status).trans (release _ a)

theorem completeTmp {tmp : List Addr} {status : Status} (h : completeTmp w tmp status = .ok w') :
    ServiceKeeps w w' := by
  cases tmp with
  | nil =>
    obtain rfl := Except.ok.inj h
    exact .refl w
  | cons a tmp => exact completePdu h

theorem closeGap {gap : UInt32} (h : closeGap w a gap = .ok w') : ServiceKeeps w w' := by
  unfold Libiscsi.closeGap at h
  split at h
  · obtain ⟨p, hp, h⟩ := Outcome.bind_eq_ok.1 h
    rw [World.deref_eq_ok] at hp
    unfold iscsiPduSetCmdsn at h
    obtain ⟨p', hp', h⟩ := Outcome.bind_eq_ok.1 h
    rw [World.deref_eq_ok, hp, Option.some.injEq] at hp'
    subst hp'
    have hset := ServiceKeeps.setPdu hp (Pdu.Renumbered.setCmdsn p (p.cmdsn - gap)).sameRequest
    rcases ht : p.scsiCbdata.task with _ | t
    · rw [ht] at h
      obtain rfl := Except.ok.inj h
      exact hset
    · rw [ht] at h
      obtain rfl := Except.ok.inj h
      refine { hset with tasks := fun t' => ?_ }
      by_cases htt : t' = t
      · subst htt
        exact ⟨_, _, _, _, Function.update_self ..⟩
      · exact ⟨_, _, _, _, Function.update_of_ne htt ..⟩
  · obtain rfl := Except.ok.inj h
    exact .refl w

theorem unlinkOutqueue {sel : World → Pdu → Bool} : ∀ {l tmp tmp' : List Addr} {gap : UInt32}
    {w w' : World}, unlinkOutqueue sel l gap tmp w = .ok (tmp', w') → ServiceKeeps w w'
  | [], _, _, _, w, w', h => by
    obtain ⟨_, rfl⟩ := Prod.mk.inj (Except.ok.inj h)
    exact .refl w
  | a :: l, tmp, tmp', gap, w, w', h => by
    unfold Libiscsi.unlinkOutqueue at h
    obtain ⟨w₁, h₁, h⟩ := Outcome.bind_eq_ok.1 h
    have hgap := closeGap h₁
    obtain ⟨p, _, h⟩ := Outcome.bind_eq_ok.1 h
    split at h
    · obtain ⟨outqueue, _, h⟩ := Outcome.bind_eq_ok.1 h
      exact (hgap.trans (.modify rfl)).trans (unlinkOutqueue h)
    · exact hgap.trans (unlinkOutqueue h)

theorem timeoutWaitpdu {t : Nat} : ∀ {l tmp tmp' : List Addr} {w w' : World},
    timeoutWaitpdu t l tmp w = .ok (tmp', w') → ServiceKeeps w w'
  | [], _, _, w, w', h => by
    obtain ⟨_, rfl⟩ := Prod.mk.inj (Except.ok.inj h)
    exact .refl w
  | a :: l, tmp, tmp', w, w', h => by
    unfold Libiscsi.timeoutWaitpdu at h
    obtain ⟨p, _, h⟩ := Outcome.bind_eq_ok.1 h
    split at h
    · obtain ⟨busy, _, h⟩ := Outcome.bind_eq_ok.1 h
      split at h
      · exact timeoutWaitpdu h
      · obtain ⟨waitpdu, _, h⟩ := Outcome.bind_eq_ok.1 h
        exact (modify rfl).trans (timeoutWaitpdu h)
    · exact timeoutWaitpdu h

theorem timeoutScan (h : iscsiTimeoutScan w = .ok w') : ServiceKeeps w w' := by
  unfold iscsiTimeoutScan at h
  obtain ⟨⟨tmp, w₁⟩, h₁, h⟩ := Outcome.bind_eq_ok.1 h
  obtain ⟨w₂, h₂, h⟩ := Outcome.bind_eq_ok.1 h
  obtain ⟨⟨tmp', w₃⟩, h₃, h₄⟩ := Outcome.bind_eq_ok.1 h
  exact (((unlinkOutqueue h₁).trans (completeTmp h₂)).trans (timeoutWaitpdu h₃)).trans
    (completeTmp h₄)

theorem sending (h : Sending a w w') : ServiceKeeps w w' where
  olds := h.olds
  now := h.now
  brk := h.brk
  allocs := h.allocs
  mem := h.mem
  session := by rw [h.iscsi]
  pdus b q hq := by
    by_cases hb : b = a
    · subst hb
      obtain ⟨p, q', hp, hq', hpq⟩ := h.pdu
      rw [hq', Function.update_self, Option.some.injEq] at hq
      exact ⟨p, hp, hq ▸ hpq.sameRequest⟩
    · exact ⟨q, by rw [← h.of_ne hb, hq], .refl q⟩
  tasks t := by
    obtain ⟨i, h⟩ := h.tasks t
    exact ⟨_, i, _, _, h⟩

theorem takeHead {r : Option Int} (h : takeHead w a = .ok (r, w')) : ServiceKeeps w w' := by
  obtain ⟨_, rfl⟩ | ⟨p, hp, ⟨_, _, _, rfl⟩ | ⟨_, q, hpq, rfl⟩⟩ := takeHead_cases h
  · exact .refl _
  · exact (modify (w := w) (f := (·.setOutqueueCurrent (some a))) rfl).trans (.setPdu hp rfl)
  · unfold World.taken
    refine .put (by simp) (fun q' hq' => ⟨p, hp, ?_⟩) fun _ => ⟨_, _, _, _, rfl⟩
    rw [← Option.some.inj hq']
    exact hpq.sameRequest

theorem writeDone (h : writeDone w a = .ok w') : ServiceKeeps w w' := by
  unfold Libiscsi.writeDone at h
  obtain ⟨p, _, h⟩ := Outcome.bind_eq_ok.1 h
  obtain ⟨w₂, h₂, h⟩ := Outcome.bind_eq_ok.1 h
  obtain rfl := Except.ok.inj h
  have hcork : ∀ w₁ : World, (w₁ = if p.hasFlag iscsiPduCorkWhenSent then
      w.modify fun c => { c with isCorked := true } else w) → ServiceKeeps w w₁ := by
    rintro w₁ rfl
    split
    · exact modify rfl
    · exact .refl w
  refine (hcork _ rfl).trans (.trans ?_ (modify rfl))
  unfold releaseSent at h₂
  split at h₂
  · obtain ⟨_, rfl⟩ := iscsiFreePdu_eq_ok.1 h₂
    exact release _ a
  · obtain rfl := Except.ok.inj h₂
    exact .refl _

theorem write {r : Int} (h : iscsiWriteToSocket w = .ok (r, w')) : ServiceKeeps w w' := by
  have hrun := iscsiWriteToSocket_run h
  clear h
  induction hrun with
  | refl => exact .refl w
  | tail _ hstep ih =>
    obtain ⟨act, hstep⟩ := hstep
    cases hstep with
    | take _ _ h => exact ih.trans (takeHead h)
    | sending _ h => exact ih.trans (sending h)
    | done _ h => exact ih.trans (writeDone h)

/-- **A run of `service` keeps the session and the requests.** -/
theorem of_run (hrun : Run ServiceStep w w') : ServiceKeeps w w' := by
  induction hrun with
  | refl => exact .refl w
  | tail _ hstep ih =>
    obtain ⟨act, hstep⟩ := hstep
    cases hstep with
    | write h => exact ih.trans (write h)
    | timeoutScan h => exact ih.trans (timeoutScan h)

end ServiceKeeps

end Libiscsi
