import Libiscsi.Reconnect
import Libiscsi.WriteCover

/-!
# What a reconnect hands over

After a reconnect `iscsi_reconnect_cb` (`lib/connect.c`) takes the requests of the context that was
put aside, those that wait for a reply first. A SCSI command is given to
`iscsi_scsi_command_async` again, a request that does not outlive its connection is cancelled, and
what has no task tag is dropped. Each request is handed over once, in that order, whatever `service`
does in between, and none of the PDUs is left (`reconnectCb_handsOver`).
-/

namespace Libiscsi

section
variable (service : World → Res World)

/-! ## The callback -/

/-- `iscsi_reconnect_cb` after a reconnect that failed: the time of the next attempt. -/
def reconnectFailed (w : World) : Res World :=
  match w.olds with
  | [] => .error .nullDeref
  | old :: olds =>
    let retryCnt := old.retryCnt + 1
    let (backoff, w) := if retryCnt > 10 then
        let (r, w) := w.rand
        (retryCnt + r % 10 - 5, w)
      else (retryCnt, w)
    let backoff := if backoff > 30 then 30 else backoff
    let backoff := if w.iscsi.reconnectMaxRetries ≠ -1 ∧ retryCnt > w.iscsi.reconnectMaxRetries then
        0 else backoff
    .ok { w.modify fun c =>
        { c with nextReconnect := (w.now + backoff).toNat, pendingReconnect := true } with
      olds := { old with retryCnt } :: olds }

/-- `iscsi->drv->free_pdu(old_iscsi, pdu)`, for a context that is not `iscsi`. -/
def freeOld (old : Context) (w : World) (a : Addr) : Res (Context × World) := do
  let w' ← iscsiFreePdu { w with iscsi := old } a
  .ok (w'.iscsi, { w' with iscsi := w.iscsi })

/-- The vectors of a task begin anew. -/
def resetVectors (task : ScsiTask) : ScsiTask :=
  { task with
    iovectorIn := scsiTaskResetIov task.iovectorIn
    iovectorOut := scsiTaskResetIov task.iovectorOut }

/-- One turn of the loop of `iscsi_reconnect_cb`. -/
def handOverOne (old : Context) (w : World) (a : Addr) : Res (Context × World) := do
  let pdu ← w.deref a
  if pdu.itt = 0xffffffff then freeOld old w a
  else if pdu.hasFlag iscsiPduDropOnReconnect then do
    let w ← invokeCallback w a scsiStatusCancelled
    freeOld old w a
  else
    match pdu.scsiCbdata.task with
    | none => .error .nullDeref
    | some t => do
      -- what is returned is not looked at
      let (_, w) ← iscsiScsiCommandAsync service (w.modifyTask t resetVectors) pdu.lun t
        pdu.scsiCbdata.callback none pdu.scsiCbdata.privateData
      freeOld old w a

/-- The loop of `iscsi_reconnect_cb` over the requests of the old context. -/
def handOver : List Addr → Context → World → Res (Context × World)
  | [], old, w => .ok (old, w)
  | a :: rest, old, w => do
    let (old, w) ← handOverOne service old w a
    handOver rest old w

/-- The PDU the old context was sending is freed if it would be deleted when it is sent. -/
def freeOldCurrent (old : Context) (w : World) : Res World :=
  match old.outqueueCurrent with
  | none => .ok w
  | some a => do
    let pdu ← w.deref a
    if pdu.hasFlag iscsiPduDeleteWhenSent then do
      let (_, w) ← freeOld old w a
      .ok w
    else .ok w

/-- `iscsi_reconnect_cb`. -/
def iscsiReconnectCb (status : Status) (w : World) : Res World :=
  if status ≠ scsiStatusGood then reconnectFailed w
  else
    match w.olds with
    | [] => .error .nullDeref
    | old :: _ => do
      let tmp := old.waitpdu ++ old.outqueue
      let (old, w) ← handOver service tmp ((old.setOutqueue []).setWaitpdu []) { w with olds := [] }
      let w ← freeOldCurrent old w
      .ok (w.modify fun c => { c with nextReconnect := w.now + 3, pendingReconnect := false })

end

/-! ## What becomes of a request -/

/-- What a request of the old context is handed over as. -/
inductive Handover where
  /-- It is a SCSI command of the new session. -/
  | resubmitted (task : TaskPtr) (lun : UInt32) (cb : Option Callback) (privateData : Nat)
  /-- Its callback says that it was cancelled. -/
  | cancelled (cb : Callback) (privateData : Nat)
  deriving DecidableEq, Repr

/-- What becomes of a request at a reconnect. -/
def Pdu.handover (p : Pdu) : Option Handover :=
  if p.itt = 0xffffffff then none
  else if p.hasFlag iscsiPduDropOnReconnect then
    p.callback.map fun cb => .cancelled cb p.privateData
  else p.scsiCbdata.task.map fun t =>
    .resubmitted t p.lun p.scsiCbdata.callback p.scsiCbdata.privateData

/-- An event that hands a request over. -/
def Event.handover : Event → Option Handover
  | .submitted _ t lun cb privateData => some (.resubmitted t lun cb privateData)
  | .callback _ cb status privateData =>
    if status = scsiStatusCancelled then some (.cancelled cb privateData) else none
  | _ => none

/-- The commands that were submitted and the requests that were cancelled, in their order. -/
def handovers (trace : List Event) : List Handover := trace.filterMap Event.handover

@[simp] theorem handovers_append (l l' : List Event) :
    handovers (l ++ l') = handovers l ++ handovers l' := List.filterMap_append

/-- The request is the same, so the same becomes of it. -/
theorem Pdu.SameRequest.handover {p q : Pdu} (h : p.SameRequest q) : q.handover = p.handover := by
  rw [h]
  rfl

/-- What a call through `pdu->callback` hands over. -/
theorem handovers_callbackEvents (p : Pdu) (a : Addr) (status : Status) :
    handovers (p.callbackEvents a status) = if status = scsiStatusCancelled then
      (p.callback.map fun cb => Handover.cancelled cb p.privateData).toList else [] := by
  have hone : ∀ (cb : Callback) (events : List Event), handovers events = [] →
      handovers (.callback a cb status p.privateData :: events) =
        if status = scsiStatusCancelled then [Handover.cancelled cb p.privateData] else [] := by
    intro cb events hevents
    unfold handovers at hevents ⊢
    by_cases hstatus : status = scsiStatusCancelled <;> simp [Event.handover, hstatus, hevents]
  unfold Pdu.callbackEvents
  cases hcb : p.callback with
  | none => simp [handovers]
  | some cb =>
    refine (hone cb _ ?_).trans rfl
    split <;> rfl

/-! ## What `service` adds to the trace -/

/-- An event of `service`: a callback says that the time is over. -/
def Event.OfService : Event → Prop
  | .callback _ _ status _ => status = scsiStatusTimeout
  | .scsiCallback .. | .free _ | .taken .. | .sent .. => True
  | _ => False

/-- What was added to the trace is of `service`. -/
def ServiceAdds (w w' : World) : Prop :=
  ∃ new, w'.trace = w.trace ++ new ∧ ∀ e ∈ new, e.OfService

namespace ServiceAdds

variable {w w' w'' : World} {a : Addr}

theorem of_eq (h : w'.trace = w.trace) : ServiceAdds w w' :=
  ⟨[], by rw [h, List.append_nil], fun _ he => absurd he List.not_mem_nil⟩

theorem of_one {e : Event} (h : w'.trace = w.trace ++ [e]) (he : e.OfService) :
    ServiceAdds w w' :=
  ⟨[e], h, fun _ hx => List.mem_singleton.1 hx ▸ he⟩

protected theorem trans (h : ServiceAdds w w') (h' : ServiceAdds w' w'') : ServiceAdds w w'' := by
  obtain ⟨new, ht, hnew⟩ := h
  obtain ⟨new', ht', hnew'⟩ := h'
  refine ⟨new ++ new', by rw [ht', ht, List.append_assoc], fun e he => ?_⟩
  exact (List.mem_append.1 he).elim (hnew e) (hnew' e)

theorem modify (f : Context → Context) : ServiceAdds w (w.modify f) := of_eq rfl

theorem release (w : World) (a : Addr) : ServiceAdds w (w.release a) :=
  of_one (e := .free a) rfl trivial

theorem called (w : World) (a : Addr) (p : Pdu) :
    ServiceAdds w (w.called a p scsiStatusTimeout) := by
  refine ⟨p.callbackEvents a scsiStatusTimeout, rfl, fun e he => ?_⟩
  unfold Pdu.callbackEvents at he
  split at he
  · exact absurd he List.not_mem_nil
  · obtain rfl | he := List.mem_cons.1 he
    · exact rfl
    · split at he
      · obtain rfl := List.mem_singleton.1 he
        trivial
      · exact absurd he List.not_mem_nil

theorem completePdu (h : completePdu w a scsiStatusTimeout = .ok w') : ServiceAdds w w' := by
  unfold Libiscsi.completePdu at h
  obtain ⟨w₁, h₁, h₂⟩ := Outcome.bind_eq_ok.1 h
  obtain ⟨p, _, rfl⟩ := invokeCallback_called h₁
  obtain ⟨_, rfl⟩ := iscsiFreePdu_eq_ok.1 h₂
  exact (called w a p).trans (release _ a)

theorem completeTmp {tmp : List Addr} (h : completeTmp w tmp scsiStatusTimeout = .ok w') :
    ServiceAdds w w' := by
  cases tmp with
  | nil =>
    obtain rfl := Except.ok.inj h
    exact of_eq rfl
  | cons a tmp => exact completePdu h

theorem closeGap {gap : UInt32} (h : closeGap w a gap = .ok w') : ServiceAdds w w' := by
  unfold Libiscsi.closeGap at h
  split at h
  · obtain ⟨p, _, h⟩ := Outcome.bind_eq_ok.1 h
    obtain ⟨_, _, hframe, _⟩ := iscsiPduSetCmdsn_eq_ok h
    rw [hframe]
    exact of_eq rfl
  · obtain rfl := Except.ok.inj h
    exact of_eq rfl

theorem unlinkOutqueue {sel : World → Pdu → Bool} : ∀ {l tmp tmp' : List Addr} {gap : UInt32}
    {w w' : World}, unlinkOutqueue sel l gap tmp w = .ok (tmp', w') → ServiceAdds w w'
  | [], _, _, _, w, w', h => by
    obtain ⟨_, rfl⟩ := Prod.mk.inj (Except.ok.inj h)
    exact of_eq rfl
  | a :: l, tmp, tmp', gap, w, w', h => by
    unfold Libiscsi.unlinkOutqueue at h
    obtain ⟨w₁, h₁, h⟩ := Outcome.bind_eq_ok.1 h
    obtain ⟨p, _, h⟩ := Outcome.bind_eq_ok.1 h
    split at h
    · obtain ⟨outqueue, _, h⟩ := Outcome.bind_eq_ok.1 h
      exact ((closeGap h₁).trans (modify _)).trans (unlinkOutqueue h)
    · exact (closeGap h₁).trans (unlinkOutqueue h)

theorem timeoutWaitpdu {t : Nat} : ∀ {l tmp tmp' : List Addr} {w w' : World},
    timeoutWaitpdu t l tmp w = .ok (tmp', w') → ServiceAdds w w'
  | [], _, _, w, w', h => by
    obtain ⟨_, rfl⟩ := Prod.mk.inj (Except.ok.inj h)
    exact of_eq rfl
  | a :: l, tmp, tmp', w, w', h => by
    unfold Libiscsi.timeoutWaitpdu at h
    obtain ⟨p, _, h⟩ := Outcome.bind_eq_ok.1 h
    split at h
    · obtain ⟨busy, _, h⟩ := Outcome.bind_eq_ok.1 h
      split at h
      · exact timeoutWaitpdu h
      · obtain ⟨waitpdu, _, h⟩ := Outcome.bind_eq_ok.1 h
        exact (modify _).trans (timeoutWaitpdu h)
    · exact timeoutWaitpdu h

theorem timeoutScan (h : iscsiTimeoutScan w = .ok w') : ServiceAdds w w' := by
  unfold iscsiTimeoutScan at h
  obtain ⟨⟨tmp, w₁⟩, h₁, h⟩ := Outcome.bind_eq_ok.1 h
  obtain ⟨w₂, h₂, h⟩ := Outcome.bind_eq_ok.1 h
  obtain ⟨⟨tmp', w₃⟩, h₃, h₄⟩ := Outcome.bind_eq_ok.1 h
  exact (((unlinkOutqueue h₁).trans (completeTmp h₂)).trans (timeoutWaitpdu h₃)).trans
    (completeTmp h₄)

theorem takeHead {r : Option Int} (h : takeHead w a = .ok (r, w')) : ServiceAdds w w' := by
  obtain ⟨_, rfl⟩ | ⟨p, _, ⟨_, _, _, rfl⟩ | ⟨_, q, _, rfl⟩⟩ := takeHead_cases h
  · exact of_eq rfl
  · exact of_eq rfl
  · exact of_one (e := .taken a q) rfl trivial

theorem sending (h : Sending a w w') : ServiceAdds w w' := by
  obtain ⟨sent, ht⟩ := h.trace
  refine ⟨_, ht, fun e he => ?_⟩
  obtain ⟨_, _, rfl⟩ := List.mem_map.1 he
  trivial

theorem writeDone (h : writeDone w a = .ok w') : ServiceAdds w w' := by
  unfold Libiscsi.writeDone at h
  obtain ⟨p, _, h⟩ := Outcome.bind_eq_ok.1 h
  obtain ⟨w₂, h₂, h⟩ := Outcome.bind_eq_ok.1 h
  obtain rfl := Except.ok.inj h
  have hcork : ∀ w₁ : World, (w₁ = if p.hasFlag iscsiPduCorkWhenSent then
      w.modify fun c => { c with isCorked := true } else w) → ServiceAdds w w₁ := by
    rintro w₁ rfl
    split <;> exact of_eq rfl
  refine (hcork _ rfl).trans (show ServiceAdds _ w₂ from ?_)
  unfold releaseSent at h₂
  split at h₂
  · obtain ⟨_, rfl⟩ := iscsiFreePdu_eq_ok.1 h₂
    exact release _ a
  · obtain rfl := Except.ok.inj h₂
    exact of_eq rfl

theorem write {r : Int} (h : iscsiWriteToSocket w = .ok (r, w')) : ServiceAdds w w' := by
  have hrun := iscsiWriteToSocket_run h
  clear h
  induction hrun with
  | refl => exact of_eq rfl
  | tail _ hstep ih =>
    obtain ⟨act, hstep⟩ := hstep
    cases hstep with
    | take _ _ h => exact ih.trans (takeHead h)
    | sending _ h => exact ih.trans (sending h)
    | done _ h => exact ih.trans (writeDone h)

/-- **What a run of `service` adds is of `service`.** -/
theorem of_run (hrun : Run ServiceStep w w') : ServiceAdds w w' := by
  induction hrun with
  | refl => exact of_eq rfl
  | tail _ hstep ih =>
    obtain ⟨act, hstep⟩ := hstep
    cases hstep with
    | write h => exact ih.trans (write h)
    | timeoutScan h => exact ih.trans (timeoutScan h)

/-- `service` hands nothing over. -/
theorem handovers_eq (h : ServiceAdds w w') : handovers w'.trace = handovers w.trace := by
  obtain ⟨new, ht, hnew⟩ := h
  have hnone : handovers new = [] := by
    refine List.filterMap_eq_nil_iff.2 fun e he => ?_
    have hservice := hnew e he
    cases e with
    | callback => exact if_neg (by rw [show _ = scsiStatusTimeout from hservice]; decide)
    | submitted => exact hservice.elim
    | _ => rfl
  rw [ht, handovers_append, hnone, List.append_nil]

end ServiceAdds

/-! ## What a submission leaves alone -/

/-- What a submission leaves as it is: the PDUs that are not its own are the requests they were, or
are no more. -/
structure Resubmits (w w' : World) : Prop where
  olds : w'.olds = w.olds
  brk : w.brk ≤ w'.brk
  sessionType : w'.iscsi.sessionType = w.iscsi.sessionType
  loggedin : w'.iscsi.isLoggedin = w.iscsi.isLoggedin
  allocs : ∀ b ∈ w'.allocs, b ∈ w.allocs
  pdus : ∀ a < w.brk, ∀ q, w'.pdus a = some q → ∃ p, w.pdus a = some p ∧ q.handover = p.handover

namespace Resubmits

variable {w w' w'' : World} {a : Addr} {p q : Pdu}

protected theorem refl (w : World) : Resubmits w w where
  olds := rfl
  brk := le_refl _
  sessionType := rfl
  loggedin := rfl
  allocs _ h := h
  pdus _ _ q hq := ⟨q, hq, rfl⟩

protected theorem trans (h : Resubmits w w') (h' : Resubmits w' w'') : Resubmits w w'' where
  olds := h'.olds.trans h.olds
  brk := h.brk.trans h'.brk
  sessionType := h'.sessionType.trans h.sessionType
  loggedin := h'.loggedin.trans h.loggedin
  allocs b hb := h.allocs b (h'.allocs b hb)
  pdus b hb r hr := by
    obtain ⟨q, hq, hqr⟩ := h'.pdus b (lt_of_lt_of_le hb h.brk) r hr
    obtain ⟨p, hp, hpq⟩ := h.pdus b hb q hq
    exact ⟨p, hp, hqr.trans hpq⟩

theorem of_service (h : ServiceKeeps w w') : Resubmits w w' where
  olds := h.olds
  brk := le_of_eq h.brk.symm
  sessionType := show w'.iscsi.session.sessionType = w.iscsi.session.sessionType by rw [h.session]
  loggedin := show w'.iscsi.session.isLoggedin = w.iscsi.session.isLoggedin by rw [h.session]
  allocs b hb := h.allocs ▸ hb
  pdus b _ q hq := by
    obtain ⟨p, hp, hpq⟩ := h.pdus b q hq
    exact ⟨p, hp, hpq.handover⟩

/-- A PDU that is filled in stays the request it is, or is a new one. -/
theorem of_update (hiscsi : w'.iscsi.sessionType = w.iscsi.sessionType)
    (hloggedin : w'.iscsi.isLoggedin = w.iscsi.isLoggedin) (holds : w'.olds = w.olds)
    (hbrk : w.brk ≤ w'.brk) (hallocs : ∀ b ∈ w'.allocs, b ∈ w.allocs)
    (hpdus : w'.pdus = Function.update w.pdus a (some q))
    (hq : a < w.brk → ∃ p, w.pdus a = some p ∧ q.handover = p.handover) : Resubmits w w' where
  olds := holds
  brk := hbrk
  sessionType := hiscsi
  loggedin := hloggedin
  allocs := hallocs
  pdus b hb r hr := by
    by_cases hba : b = a
    · subst hba
      rw [hpdus, Function.update_self, Option.some.injEq] at hr
      exact hr ▸ hq hb
    · rw [hpdus, Function.update_of_ne hba] at hr
      exact ⟨r, hr, rfl⟩

theorem setPdu (hp : w.pdus a = some p) (hpq : q.handover = p.handover) :
    Resubmits w (w.setPdu a q) :=
  of_update rfl rfl rfl (le_refl _) (fun _ hb => hb) rfl fun _ => ⟨p, hp, hpq⟩

end Resubmits

section
variable {service : World → Res World} {w w' : World} {a : Addr} {p : Pdu}

/-- Queueing a PDU that is not for immediate delivery hands nothing over. -/
theorem iscsiQueuePdu_resubmits (hserves : Serves service) (hp : w.pdus a = some p)
    (himm : p.immediate = false) (h : iscsiQueuePdu service w a = .ok w') :
    Resubmits w w' ∧ handovers w'.trace = handovers w.trace := by
  obtain ⟨w₁, henq, hserve⟩ := iscsiAddToOutqueue_cases h
  obtain ⟨outqueue, rfl⟩ := enqueue_queued hp himm henq
  set w₁ := w.put (w.iscsi.setOutqueue outqueue)
    (Function.update w.pdus a (some { p with scsiTimeout := w.timeoutOf })) w.tasks
    (w.trace ++ [.queued a { p with scsiTimeout := w.timeoutOf }]) with hw₁
  have hqueued : Resubmits w w₁ :=
    .of_update rfl rfl rfl (le_refl _) (fun _ hb => hb) rfl fun _ => ⟨p, hp, rfl⟩
  have htrace : handovers w₁.trace = handovers w.trace := by
    rw [hw₁, World.put_trace, handovers_append]
    exact List.append_nil _
  rcases hserve with rfl | hserve
  · exact ⟨hqueued, htrace⟩
  · have hrun := hserves _ _ hserve
    exact ⟨hqueued.trans (.of_service (.of_run hrun)),
      (ServiceAdds.of_run hrun).handovers_eq.trans htrace⟩

/-- Neither does a DATA-OUT, when there is memory for it. -/
theorem sendOneDataOut_resubmits (hserves : Serves service) {ttt offset len : UInt32}
    {last sent : Bool} (ha : a < w.brk) (hal : ∀ b ∈ w.allocs, b = true)
    (h : sendOneDataOut service w a ttt offset len last = .ok (sent, w')) :
    sent = true ∧ Resubmits w w' ∧ handovers w'.trace = handovers w.trace := by
  unfold sendOneDataOut at h
  obtain ⟨cmd, hcmd, h⟩ := Outcome.bind_eq_ok.1 h
  rw [World.deref_eq_ok] at hcmd
  rw [iscsiAllocatePdu_ok fun b hb => hal b (List.mem_of_mem_take hb)] at h
  simp only at h
  set fresh := w.iscsi.freshPdu iscsiPduDataOut iscsiPduNoPdu cmd.itt
    (iscsiPduDropOnReconnect ||| iscsiPduDeleteWhenSent) with hfresh
  rw [World.deref_eq_ok.2 (w.allocated_pdus_self _), Outcome.ok_bind] at h
  obtain ⟨w₂, hq, h⟩ := Outcome.bind_eq_ok.1 h
  obtain ⟨rfl, rfl⟩ := Prod.mk.inj (Except.ok.inj h)
  have hop : byte fresh.outdata 0 = iscsiPduDataOut := by rw [hfresh, byte_freshPdu]
  have himm : (fresh.asDataOut cmd ttt offset len last).immediate = false := by
    rw [Pdu.immediate, byte_asDataOut, hop]
    rfl
  generalize fresh.asDataOut cmd ttt offset len last = d at hq himm
  have hnew : Resubmits w ((w.allocated fresh).setPdu w.brk d) :=
    .of_update rfl rfl rfl (Nat.le_succ _) (fun _ hb => List.mem_of_mem_drop hb)
      (Function.update_idem ..) fun h => absurd h (lt_irrefl _)
  have hcmd' : ((w.allocated fresh).setPdu w.brk d).pdus a = some cmd := by
    rw [World.setPdu_pdus, Function.update_of_ne (ne_of_lt ha)]
    exact (Function.update_of_ne (ne_of_lt ha) ..).trans hcmd
  have hd : (((w.allocated fresh).setPdu w.brk d).setPdu a
      { cmd with datasn := cmd.datasn + 1 }).pdus w.brk = some d := by
    rw [World.setPdu_pdus, Function.update_of_ne (ne_of_gt ha), World.setPdu_pdus,
      Function.update_self]
  obtain ⟨hqueued, htrace⟩ := iscsiQueuePdu_resubmits hserves hd himm hq
  have hsn : Resubmits ((w.allocated fresh).setPdu w.brk d)
      (((w.allocated fresh).setPdu w.brk d).setPdu a { cmd with datasn := cmd.datasn + 1 }) :=
    .setPdu hcmd' rfl
  exact ⟨rfl, (hnew.trans hsn).trans hqueued, htrace⟩

/-- Nor do all of them. -/
theorem iscsiSendDataOut_resubmits (hserves : Serves service) {ttt : UInt32} :
    ∀ {fuel : Nat} {offset len : UInt32} {w w' : World} {r : Int}, a < w.brk →
    (∀ b ∈ w.allocs, b = true) → iscsiSendDataOut service fuel w a ttt offset len = .ok (r, w') →
    Resubmits w w' ∧ handovers w'.trace = handovers w.trace
  | fuel, offset, len, w, w', r, ha, hal, h => by
    unfold iscsiSendDataOut at h
    split at h
    · cases fuel with
      | zero => cases h
      | succ fuel =>
        simp only at h
        obtain ⟨⟨sent, w₁⟩, h₁, h⟩ := Outcome.bind_eq_ok.1 h
        obtain ⟨rfl, hone, htrace⟩ := sendOneDataOut_resubmits hserves ha hal h₁
        obtain ⟨hrest, htrace'⟩ := iscsiSendDataOut_resubmits hserves
          (lt_of_lt_of_le ha hone.brk) (fun b hb => hal b (hone.allocs b hb)) h
        exact ⟨hone.trans hrest, htrace'.trans htrace⟩
    · obtain ⟨_, rfl⟩ := Prod.mk.inj (Except.ok.inj h)
      exact ⟨.refl _, rfl⟩

/-- **A SCSI command is submitted once.** -/
theorem queueCommand_resubmits (hserves : Serves service) {lun : UInt32} {t : TaskPtr}
    {cb : Option Callback} {privateData : Nat} {r : Int} (hal : ∀ b ∈ w.allocs, b = true)
    (h : queueCommand service w lun t cb privateData = .ok (r, w')) :
    Resubmits w w' ∧
      handovers w'.trace = handovers w.trace ++ [.resubmitted t lun cb privateData] := by
  unfold queueCommand iscsiIttPostIncrement at h
  simp only at h
  set w₁ := w.modify fun c =>
    { c with itt := if w.iscsi.itt + 1 = 0xffffffff then 0 else w.iscsi.itt + 1 } with hw₁
  have hitt : Resubmits w w₁ :=
    ⟨rfl, le_refl _, rfl, rfl, fun _ hb => hb, fun _ _ q hq => ⟨q, hq, rfl⟩⟩
  have hal₁ : ∀ b ∈ w₁.allocs.take 2, b = true := fun b hb => hal b (List.mem_of_mem_take hb)
  rw [iscsiAllocatePdu_ok hal₁] at h
  simp only at h
  set fresh := w₁.iscsi.freshPdu iscsiPduScsiRequest iscsiPduScsiResponse w.iscsi.itt 0 with hfresh
  have hop : byte fresh.outdata 0 = iscsiPduScsiRequest := by rw [hfresh, byte_freshPdu]
  obtain ⟨w₃, hprep, h⟩ := Outcome.bind_eq_ok.1 h
  have hframe := prepareCommand_spec (p := fresh) (Function.update_self ..) hprep
  clear_value fresh
  set p := fresh.commandFor w₁.iscsi w₁.brk lun t (w.tasks t) cb privateData with hp
  have hfilled : Resubmits w₁ w₃ := by
    rw [hframe]
    exact .of_update rfl rfl rfl (Nat.le_succ _) (fun _ hb => List.mem_of_mem_drop hb)
      (Function.update_idem ..) fun h => absurd h (lt_irrefl _)
  have hp₃ : w₃.pdus w₁.brk = some p := by
    rw [hframe]
    exact Function.update_self ..
  have himm : p.immediate = false := by
    rw [Pdu.immediate, hp, byte_commandFor, hop]
    rfl
  have htrace : handovers w₃.trace =
      handovers w.trace ++ [.resubmitted t lun cb privateData] := by
    rw [hframe, World.put_trace, handovers_append]
    rfl
  have hbrk : w₁.brk < w₃.brk := by
    rw [hframe]
    exact Nat.lt_succ_self _
  have hall : Resubmits w w₃ := hitt.trans hfilled
  unfold submitCommand at h
  obtain ⟨w₄, hq, h⟩ := Outcome.bind_eq_ok.1 h
  obtain ⟨hqueued, htrace'⟩ := iscsiQueuePdu_resubmits hserves hp₃ himm hq
  split at h
  · obtain ⟨⟨s, w₅⟩, hun, h⟩ := Outcome.bind_eq_ok.1 h
    obtain ⟨_, rfl⟩ := Prod.mk.inj (Except.ok.inj h)
    unfold iscsiSendUnsolicitedDataOut at hun
    obtain ⟨q, _, hun⟩ := Outcome.bind_eq_ok.1 hun
    obtain ⟨hdata, htrace''⟩ := iscsiSendDataOut_resubmits hserves
      (lt_of_lt_of_le hbrk hqueued.brk)
      (fun b hb => hal b (hall.allocs b (hqueued.allocs b hb))) hun
    exact ⟨(hall.trans hqueued).trans hdata, htrace''.trans (htrace'.trans htrace)⟩
  · obtain ⟨_, rfl⟩ := Prod.mk.inj (Except.ok.inj h)
    exact ⟨hall.trans hqueued, htrace'.trans htrace⟩

end

/-! ## The requests, one after another -/

/-- A PDU that was freed is not there again. -/
theorem Resubmits.none {w w' : World} {a : Addr} (h : Resubmits w w') (ha : a < w.brk)
    (hnone : w.pdus a = none) : w'.pdus a = none := by
  cases hq : w'.pdus a with
  | none => rfl
  | some q =>
    obtain ⟨p, hp, _⟩ := h.pdus a ha q hq
    rw [hnone] at hp
    cases hp

section
variable {service : World → Res World} {old old' : Context} {w w' : World} {a : Addr}

/-- A PDU of the old context is freed. -/
theorem freeOld_spec (h : freeOld old w a = .ok (old', w')) :
    Resubmits w w' ∧ w'.pdus a = none ∧ (∃ p, w.pdus a = some p) ∧
      handovers w'.trace = handovers w.trace := by
  unfold freeOld at h
  obtain ⟨w₁, hfree, h⟩ := Outcome.bind_eq_ok.1 h
  obtain ⟨hp, rfl⟩ := iscsiFreePdu_eq_ok.1 hfree
  obtain ⟨_, rfl⟩ := Prod.mk.inj (Except.ok.inj h)
  refine ⟨⟨rfl, le_refl _, rfl, rfl, fun _ hb => hb, fun b _ q hq => ?_⟩, Function.update_self ..,
    Option.isSome_iff_exists.1 hp, ?_⟩
  · by_cases hba : b = a
    · subst hba
      have hnone : (some q : Option Pdu) = none := hq.symm.trans (Function.update_self ..)
      cases hnone
    · exact ⟨q, (Function.update_of_ne hba ..).symm.trans hq, rfl⟩
  · change handovers (w.trace ++ [.free a]) = _
    rw [handovers_append]
    exact List.append_nil _

/-- In a session that is logged in a command without a buffer of its own is queued. -/
theorem iscsiScsiCommandAsync_loggedin {lun : UInt32} {t : TaskPtr} {cb : Option Callback}
    {privateData : Nat} (holds : w.olds = []) (hnormal : w.iscsi.sessionType = .normal)
    (hlogin : w.iscsi.isLoggedin = true) :
    iscsiScsiCommandAsync service w lun t cb none privateData =
      queueCommand service w lun t cb privateData := by
  unfold iscsiScsiCommandAsync
  rw [holds]
  simp only
  unfold commandHere
  rw [if_neg (by simp [hnormal]), if_neg (by simp [hlogin])]

/-- **One request is handed over once**, and its PDU is freed. -/
theorem handOverOne_spec (hserves : Serves service) (holds : w.olds = [])
    (hnormal : w.iscsi.sessionType = .normal) (hlogin : w.iscsi.isLoggedin = true)
    (hal : ∀ b ∈ w.allocs, b = true) (h : handOverOne service old w a = .ok (old', w')) :
    Resubmits w w' ∧ (a < w.brk → w'.pdus a = none) ∧ ∃ p, w.pdus a = some p ∧
      handovers w'.trace = handovers w.trace ++ p.handover.toList := by
  unfold handOverOne at h
  obtain ⟨p, hp, h⟩ := Outcome.bind_eq_ok.1 h
  rw [World.deref_eq_ok] at hp
  split at h
  · rename_i hitt
    obtain ⟨hsub, hnone, _, htrace⟩ := freeOld_spec h
    have hover : p.handover = none := if_pos hitt
    exact ⟨hsub, fun _ => hnone, p, hp, by rw [htrace, hover]; exact (List.append_nil _).symm⟩
  rename_i hitt
  split at h
  · rename_i hdrop
    obtain ⟨w₁, hcall, h⟩ := Outcome.bind_eq_ok.1 h
    obtain ⟨q, hq, rfl⟩ := invokeCallback_called hcall
    obtain rfl := Option.some.inj (hp.symm.trans hq)
    obtain ⟨hsub, hnone, _, htrace⟩ := freeOld_spec h
    have hover : p.handover = p.callback.map fun cb => .cancelled cb p.privateData := by
      unfold Pdu.handover
      rw [if_neg hitt, if_pos hdrop]
    refine ⟨(Resubmits.of_service (.called w a p _)).trans hsub, fun _ => hnone, p, hp, ?_⟩
    rw [htrace, hover, World.called, World.put_trace, handovers_append, handovers_callbackEvents,
      if_pos rfl]
  · rename_i hdrop
    split at h
    · cases h
    rename_i t htask
    obtain ⟨⟨r, w₁⟩, hsubmit, h⟩ := Outcome.bind_eq_ok.1 h
    have hreset : Resubmits w (w.modifyTask t resetVectors) :=
      ⟨rfl, le_refl _, rfl, rfl, fun _ hb => hb, fun _ _ q hq => ⟨q, hq, rfl⟩⟩
    have holds' : (w.modifyTask t resetVectors).olds = [] := holds
    rw [iscsiScsiCommandAsync_loggedin holds' hnormal hlogin] at hsubmit
    have hal' : ∀ b ∈ (w.modifyTask t resetVectors).allocs, b = true := hal
    obtain ⟨hsub₁, htrace₁⟩ := queueCommand_resubmits hserves hal' hsubmit
    obtain ⟨hsub, hnone, _, htrace⟩ := freeOld_spec h
    have hover : p.handover =
        some (.resubmitted t p.lun p.scsiCbdata.callback p.scsiCbdata.privateData) := by
      unfold Pdu.handover
      rw [if_neg hitt, if_neg hdrop, htask]
      rfl
    refine ⟨(hreset.trans hsub₁).trans hsub, fun _ => hnone, p, hp, ?_⟩
    rw [htrace, htrace₁, hover]
    rfl

/-- The requests of a list are handed over in its order. -/
theorem handOver_spec (hserves : Serves service) : ∀ {l : List Addr} {old old' : Context}
    {w w' : World}, w.olds = [] → w.iscsi.sessionType = .normal → w.iscsi.isLoggedin = true →
    (∀ b ∈ w.allocs, b = true) → (∀ a ∈ l, a < w.brk) →
    handOver service l old w = .ok (old', w') →
    Resubmits w w' ∧ (∀ a ∈ l, w'.pdus a = none) ∧ (∀ a ∈ l, ∃ p, w.pdus a = some p) ∧
      handovers w'.trace = handovers w.trace ++ l.filterMap fun a => (w.pdus a).bind Pdu.handover
  | [], old, old', w, w', _, _, _, _, _, h => by
    obtain ⟨_, rfl⟩ := Prod.mk.inj (Except.ok.inj h)
    exact ⟨.refl _, fun _ ha => absurd ha List.not_mem_nil, fun _ ha => absurd ha List.not_mem_nil,
      (List.append_nil _).symm⟩
  | a :: rest, old, old', w, w', holds, hnormal, hlogin, hal, hbrk, h => by
    unfold handOver at h
    obtain ⟨⟨old₁, w₁⟩, h₁, h⟩ := Outcome.bind_eq_ok.1 h
    have ha := hbrk a List.mem_cons_self
    have hrest : ∀ b ∈ rest, b < w.brk := fun b hb => hbrk b (List.mem_cons_of_mem a hb)
    obtain ⟨hone, hnone, p, hp, htrace⟩ :=
      handOverOne_spec hserves holds hnormal hlogin hal h₁
    obtain ⟨hsub, hfreed, hthere, htrace'⟩ := handOver_spec hserves (hone.olds.trans holds)
      (hone.sessionType.trans hnormal) (hone.loggedin.trans hlogin)
      (fun b hb => hal b (hone.allocs b hb))
      (fun b hb => lt_of_lt_of_le (hrest b hb) hone.brk) h
    -- what is still to be handed over is what it was
    have hsame : ∀ b ∈ rest, ∃ p q, w.pdus b = some p ∧ w₁.pdus b = some q ∧
        q.handover = p.handover := by
      intro b hb
      obtain ⟨q, hq⟩ := hthere b hb
      obtain ⟨p, hp, hqp⟩ := hone.pdus b (hrest b hb) q hq
      exact ⟨p, q, hp, hq, hqp⟩
    have hmap : (rest.filterMap fun b => (w₁.pdus b).bind Pdu.handover) =
        rest.filterMap fun b => (w.pdus b).bind Pdu.handover := by
      refine List.filterMap_congr fun b hb => ?_
      obtain ⟨p, q, hp, hq, hqp⟩ := hsame b hb
      rw [hp, hq]
      exact hqp
    refine ⟨hone.trans hsub, fun b hb => ?_, fun b hb => ?_, ?_⟩
    · rcases List.mem_cons.1 hb with rfl | hb
      · exact hsub.none (lt_of_lt_of_le ha hone.brk) (hnone ha)
      · exact hfreed b hb
    · rcases List.mem_cons.1 hb with rfl | hb
      · exact ⟨p, hp⟩
      · obtain ⟨p, _, hp, _⟩ := hsame b hb
        exact ⟨p, hp⟩
    · have hfirst : (w.pdus a).bind Pdu.handover = p.handover := by rw [hp]; rfl
      rw [htrace', htrace, hmap, List.append_assoc, List.filterMap_cons, hfirst]
      cases p.handover <;> rfl

/-- The PDU the old context was sending hands nothing over. -/
theorem freeOldCurrent_spec (h : freeOldCurrent old w = .ok w') :
    Resubmits w w' ∧ handovers w'.trace = handovers w.trace := by
  unfold freeOldCurrent at h
  split at h
  · obtain rfl := Except.ok.inj h
    exact ⟨.refl _, rfl⟩
  · obtain ⟨p, _, h⟩ := Outcome.bind_eq_ok.1 h
    split at h
    · obtain ⟨⟨_, w₁⟩, hfree, h⟩ := Outcome.bind_eq_ok.1 h
      obtain rfl := Except.ok.inj h
      obtain ⟨hsub, _, _, htrace⟩ := freeOld_spec hfree
      exact ⟨hsub, htrace⟩
    · obtain rfl := Except.ok.inj h
      exact ⟨.refl _, rfl⟩

end

/-- **A reconnect hands every request over once.** The SCSI commands of the old context are
submitted to the new session and the requests that do not outlive their connection are cancelled,
those that waited for a reply first; nothing else is submitted or cancelled, and no PDU of the old
queues is left. -/
theorem reconnectCb_handsOver {service : World → Res World} (hserves : Serves service)
    {w w' : World} {old : Context} {olds : List Context} (holds : w.olds = old :: olds)
    (hnormal : w.iscsi.sessionType = .normal) (hlogin : w.iscsi.isLoggedin = true)
    (hal : ∀ b ∈ w.allocs, b = true) (hbrk : ∀ a ∈ old.waitpdu ++ old.outqueue, a < w.brk)
    (h : iscsiReconnectCb service scsiStatusGood w = .ok w') :
    handovers w'.trace = handovers w.trace ++
        (old.waitpdu ++ old.outqueue).filterMap (fun a => (w.pdus a).bind Pdu.handover) ∧
      (∀ a ∈ old.waitpdu ++ old.outqueue, w'.pdus a = none) ∧ w'.olds = [] ∧
      w'.iscsi.pendingReconnect = false := by
  unfold iscsiReconnectCb at h
  rw [if_neg (fun hne => hne rfl), holds] at h
  simp only at h
  obtain ⟨⟨old₁, w₁⟩, hover, h⟩ := Outcome.bind_eq_ok.1 h
  obtain ⟨w₂, hcurrent, h⟩ := Outcome.bind_eq_ok.1 h
  obtain rfl := Except.ok.inj h
  obtain ⟨hsub, hfreed, _, htrace⟩ := handOver_spec hserves (w := { w with olds := [] }) rfl
    hnormal hlogin hal hbrk hover
  obtain ⟨hsub', htrace'⟩ := freeOldCurrent_spec hcurrent
  refine ⟨htrace'.trans htrace, fun a ha => ?_, hsub'.olds.trans hsub.olds, rfl⟩
  exact hsub'.none (lt_of_lt_of_le (hbrk a ha) hsub.brk) (hfreed a ha)

/-- A session that has just been set up again. The old one had queued a request to be dropped, and a
SCSI command waits for its response. -/
def reconnected : World where
  iscsi := { sessionType := .normal, isLoggedin := true }
  olds := [{ waitpdu := [0], outqueue := [1] }]
  pdus a := if a = 0 then
      some { itt := 7, callback := some .scsiResponseCb, scsiCbdata := { task := some 3 } }
    else if a = 1 then
      some { itt := 8, flags := iscsiPduDropOnReconnect, callback := some .loginCb
             privateData := 5 }
    else none
  brk := 2

/-- The command is submitted again and the other request is cancelled. -/
theorem reconnectCb_handsOver_two : ∃ w', iscsiReconnectCb Except.ok scsiStatusGood reconnected =
    .ok w' ∧ handovers w'.trace = [.resubmitted 3 0 none 0, .cancelled .loginCb 5] ∧
      w'.pdus 0 = none ∧ w'.pdus 1 = none := by
  obtain ⟨w', hrun⟩ : ∃ w', iscsiReconnectCb Except.ok scsiStatusGood reconnected = .ok w' :=
    ⟨_, rfl⟩
  have hserves : Serves Except.ok := fun w w' h => by
    obtain rfl := Except.ok.inj h
    exact .refl
  obtain ⟨htrace, hfreed, _, _⟩ := reconnectCb_handsOver hserves (w := reconnected) rfl rfl rfl
    (fun _ hb => absurd hb List.not_mem_nil) (by decide) hrun
  exact ⟨w', hrun, htrace, hfreed 0 (by decide), hfreed 1 (by decide)⟩

end Libiscsi
