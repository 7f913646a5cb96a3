import Libiscsi.Dispatch

/-!
# Replies complete requests

What `iscsi_process_pdu` does with the replies of a target and with its Rejects. Each completes the
request that has its task tag, or leaves all requests as they are (`reply_step`). So in whatever
order the replies arrive, a request is completed at most once, by a PDU with its tag, with one call
of its callback and one release (`replies_complete`).
-/

namespace Libiscsi

/-! ## Requests -/

/-- A request with a task where its callback or its replies need one. Data-In are no reply of their
own. -/
structure Pdu.Answerable (p : Pdu) : Prop where
  hasTask : p.HasTask
  task : p.responseOpcode = iscsiPduScsiResponse → p.scsiCbdata.task.isSome
  noDataIn : p.responseOpcode ≠ iscsiPduDataIn

/-- The requests that wait for a reply can be completed. -/
structure World.Session (w : World) : Prop where
  nodup : w.iscsi.waitpdu.Nodup
  live : ∀ a ∈ w.iscsi.waitpdu, ∃ p, w.pdus a = some p ∧ p.Answerable

/-- Nothing is sent because of the PDU. -/
structure InPdu.Replies (inPdu : InPdu) : Prop where
  noAsyncMsg : inPdu.opcode ≠ iscsiPduAsyncMsg
  noLogout : inPdu.opcode = iscsiPduReject → byte inPdu.hdr 2 ≠ rejectWaitingForLogout
  noNopOut : inPdu.opcode = iscsiPduNopIn → inPdu.itt = 0xffffffff →
    scsiGetUint32 inPdu.hdr 20 = 0xffffffff
  noR2t : inPdu.opcode ≠ iscsiPduR2t

/-- A Data-In without data to collect. -/
def InPdu.EmptyDataIn (inPdu : InPdu) : Prop :=
  inPdu.opcode = iscsiPduDataIn ∧
    ((inPdu.data.getD []).take (iscsiGetPduDataSize inPdu.hdr)).length = 0

/-- The task tag of the request that a PDU is about. -/
def InPdu.tag (inPdu : InPdu) : UInt32 :=
  if inPdu.opcode = iscsiPduReject then inPdu.rejectedItt else inPdu.itt

/-- A PDU is the one it was, but for the data that are collected. -/
def World.Keeps (w w' : World) (b : Addr) : Prop :=
  ∃ data : Pdu → List UInt8, w'.pdus b = (w.pdus b).map fun p => { p with indata := data p }

theorem World.Keeps.of_eq {w w' : World} {b : Addr} (h : w'.pdus b = w.pdus b) : w.Keeps w' b :=
  ⟨Pdu.indata, by rw [h]; cases w.pdus b <;> rfl⟩

/-- The events of a reply: those of the callback with a status, if it is called. -/
def Pdu.replyEvents (p : Pdu) (a : Addr) : Option Status → List Event
  | none => []
  | some status => p.callbackEvents a status

/-- A PDU is about to be completed or goes on waiting: of the PDUs only the data collected for it
may have changed, and nothing has been called. -/
structure World.Prepared (w v : World) (a : Addr) (p : Pdu) : Prop where
  waitpdu : v.iscsi.waitpdu = w.iscsi.waitpdu
  trace : v.trace = w.trace
  allocs : v.allocs <:+ w.allocs
  others : ∀ b, b ≠ a → v.pdus b = w.pdus b
  pdu : ∃ data, v.pdus a = some { p with indata := data }

/-- The callback was called with the status, if there is one. -/
structure World.Replied (w v : World) (a : Addr) (p : Pdu) (status : Option Status) : Prop where
  waitpdu : v.iscsi.waitpdu = w.iscsi.waitpdu
  trace : v.trace = w.trace ++ p.replyEvents a status
  allocs : v.allocs <:+ w.allocs
  others : ∀ b, b ≠ a → v.pdus b = w.pdus b
  pdu : (v.pdus a).isSome

/-- The request was completed. -/
structure World.Finished (w v : World) (a : Addr) (p : Pdu) (status : Option Status) : Prop where
  waitpdu : v.iscsi.waitpdu = w.iscsi.waitpdu.erase a
  trace : v.trace = w.trace ++ (p.replyEvents a status ++ [.free a])
  allocs : v.allocs <:+ w.allocs
  others : ∀ b, b ≠ a → v.pdus b = w.pdus b
  pdu : v.pdus a = none

section
variable {w v u : World} {a : Addr} {p : Pdu} {inPdu : InPdu}

namespace World.Prepared

theorem refl (hp : w.pdus a = some p) : w.Prepared w a p :=
  ⟨rfl, rfl, List.suffix_rfl, fun _ _ => rfl, p.indata, hp⟩

theorem modifyTask (h : w.Prepared v a p) (t : TaskPtr) (g : ScsiTask → ScsiTask) :
    w.Prepared (v.modifyTask t g) a p :=
  ⟨h.waitpdu, h.trace, h.allocs, h.others, h.pdu⟩

theorem modify (h : w.Prepared v a p) {f : Context → Context}
    (hf : (f v.iscsi).waitpdu = v.iscsi.waitpdu) : w.Prepared (v.modify f) a p :=
  ⟨hf.trans h.waitpdu, h.trace, h.allocs, h.others, h.pdu⟩

theorem setIndata (h : w.Prepared v a p) {q : Pdu} (hq : v.pdus a = some q) (data : List UInt8) :
    w.Prepared (v.setPdu a { q with indata := data }) a p := by
  obtain ⟨data', hp⟩ := h.pdu
  obtain rfl := Option.some.inj (hq.symm.trans hp)
  refine ⟨h.waitpdu, h.trace, h.allocs, fun b hb => ?_, data, ?_⟩
  · rw [← h.others b hb, World.setPdu_pdus, Function.update_of_ne hb]
  · rw [World.setPdu_pdus, Function.update_self]

theorem takeIndata (h : w.Prepared v a p) {q : Pdu} (hq : v.pdus a = some q) (t : TaskPtr) :
    w.Prepared (takeIndata v a q t) a p :=
  (h.modifyTask t _).setIndata hq []

/-- Memory is allocated, or some allocation fails. -/
theorem malloc (h : w.Prepared v a p) :
    (v.malloc.1 = false → false ∈ w.allocs) ∧ w.Prepared v.malloc.2 a p := by
  rw [World.malloc_eq]
  refine ⟨fun hfail => h.allocs.mem ?_, h.waitpdu, h.trace, ?_, h.others, h.pdu⟩
  · cases hallocs : v.allocs with
    | nil =>
      rw [hallocs] at hfail
      cases hfail
    | cons b allocs =>
      rw [hallocs] at hfail
      exact List.mem_cons.2 (.inl hfail.symm)
  · exact (List.tail_suffix _).trans h.allocs

/-- **The callback is called.** -/
theorem invoke (h : w.Prepared v a p) (ht : p.HasTask) (status : Status) :
    ∃ u, invokeCallback v a status = .ok u ∧ w.Replied u a p (some status) := by
  obtain ⟨data, hp⟩ := h.pdu
  have hevents : ({ p with indata := data } : Pdu).callbackEvents a status =
      p.callbackEvents a status := rfl
  refine ⟨_, invokeCallback_eq status hp ht, ?_, ?_, h.allocs, h.others, ?_⟩
  · exact (Pdu.callbackContext_waitpdu _ _).trans h.waitpdu
  · exact congrArg₂ (· ++ ·) h.trace hevents
  · exact Option.isSome_iff_exists.2 ⟨_, hp⟩

theorem answer (h : w.Prepared v a p) (ht : p.HasTask) (status : Status) (r : Int) :
    ∃ u, answer v a status r = .ok (r, u) ∧ w.Replied u a p (some status) := by
  obtain ⟨u, hrun, hu⟩ := h.invoke ht status
  refine ⟨u, ?_, hu⟩
  unfold Libiscsi.answer
  rw [hrun, Outcome.ok_bind]

/-- The callback is not called. -/
theorem unanswered (h : w.Prepared v a p) : w.Replied v a p none := by
  obtain ⟨data, hp⟩ := h.pdu
  refine ⟨h.waitpdu, ?_, h.allocs, h.others, Option.isSome_iff_exists.2 ⟨_, hp⟩⟩
  exact h.trace.trans (List.append_nil _).symm

/-- There is no callback to call. -/
theorem noCallback (h : w.Prepared v a p) (hcb : p.callback = none) (status : Status) :
    w.Replied v a p (some status) := by
  have hevents : p.replyEvents a (some status) = [] := by
    unfold Pdu.replyEvents Pdu.callbackEvents
    simp only [hcb]
  have hnone := h.unanswered
  exact ⟨hnone.waitpdu, by rw [hevents]; exact hnone.trace, hnone.allocs, hnone.others, hnone.pdu⟩

end World.Prepared

/-- **The request leaves `waitpdu` and is freed.** -/
theorem World.Replied.drop {status : Option Status} (h : w.Replied v a p status)
    (ha : a ∈ w.iscsi.waitpdu) : ∃ u, dropWaiting v a = .ok u ∧ w.Finished u a p status := by
  obtain ⟨q, hq⟩ := Option.isSome_iff_exists.1 h.pdu
  have hne : v.iscsi.waitpdu ≠ [] := by
    rw [h.waitpdu]
    exact List.ne_nil_of_mem ha
  refine ⟨_, dropWaiting_eq hne hq, ?_, ?_, h.allocs, fun b hb => ?_, ?_⟩
  · exact congrArg (fun l => List.erase l a) h.waitpdu
  · change v.trace ++ [.free a] = _
    rw [h.trace, List.append_assoc]
  · exact (Function.update_of_ne hb ..).trans (h.others b hb)
  · exact Function.update_self ..

/-! ## SCSI replies -/

/-- A SCSI Response calls the callback, unless there is no memory for its sense data. -/
theorem scsiReply_replies (h : w.Prepared v a p) (ht : p.HasTask)
    (htask : p.scsiCbdata.task.isSome) : ∃ r u status,
      iscsiProcessScsiReply v a inPdu = .ok (r, u) ∧ w.Replied u a p status ∧
        (status = none → false ∈ w.allocs) := by
  obtain ⟨data, hp⟩ := h.pdu
  obtain ⟨t, hsome⟩ := Option.isSome_iff_exists.1 htask
  have hanswer : ∀ {v : World} (status : Status) (r : Int), w.Prepared v a p →
      ∃ r' u status', Libiscsi.answer v a status r = .ok (r', u) ∧ w.Replied u a p status' ∧
        (status' = none → false ∈ w.allocs) := by
    intro v status r hv
    obtain ⟨u, hrun, hu⟩ := hv.answer ht status r
    exact ⟨r, u, some status, hrun, hu, fun h => absurd h (Option.some_ne_none _)⟩
  unfold iscsiProcessScsiReply
  rw [World.deref_eq_ok.2 hp, Outcome.ok_bind]
  simp only [hsome]
  split
  · exact hanswer _ _ h
  split
  · exact hanswer _ _ h
  split
  · exact hanswer _ _ (h.modifyTask t _)
  have hv := h.modifyTask t (·.withResidual inPdu)
  unfold replyStatus
  simp only
  split
  · exact hanswer _ _ (hv.takeIndata hp t)
  split
  · obtain ⟨hfail, hmalloc⟩ := hv.malloc
    split
    · rename_i hfalse
      refine ⟨0, _, none, rfl, (hmalloc.modifyTask t _).unanswered, fun _ => hfail ?_⟩
      simpa using hfalse
    · exact hanswer _ _ (hmalloc.modifyTask t _)
  split
  · exact hanswer _ _ hv
  · exact hanswer _ _ hv

/-- The data of a Data-In are collected, if there are any and there is memory for them. -/
theorem collectData_prepared {t : TaskPtr} (h : w.Prepared v a p)
    (hop : inPdu.opcode = iscsiPduDataIn) : ∃ r u,
      collectData v a t inPdu = .ok (r, u) ∧ w.Prepared u a p ∧
        (r ≠ 0 → false ∈ w.allocs ∨ inPdu.EmptyDataIn) := by
  have hzero : (0 : Int) ≠ 0 → false ∈ w.allocs ∨ inPdu.EmptyDataIn := fun h => absurd rfl h
  unfold collectData
  split
  · unfold iscsiAddIndata
    split
    · rename_i hempty
      exact ⟨-1, v, rfl, h, fun _ => .inr ⟨hop, hempty⟩⟩
    · obtain ⟨hfail, hmalloc⟩ := h.malloc
      obtain ⟨data, hp⟩ := hmalloc.pdu
      simp only [World.deref_eq_ok.2 hp, Outcome.ok_bind]
      split
      · rename_i hfalse
        refine ⟨-1, _, rfl, hmalloc.setIndata hp _, fun _ => .inl (hfail ?_)⟩
        simpa using hfalse
      · exact ⟨0, _, rfl, hmalloc.setIndata hp _, hzero⟩
  · exact ⟨0, v, rfl, h, hzero⟩

/-- A Data-In completes the command, or the command goes on. -/
theorem dataIn_replies (h : w.Prepared v a p) (ht : p.HasTask) (htask : p.scsiCbdata.task.isSome)
    (hop : inPdu.opcode = iscsiPduDataIn) :
    (∃ r u status, iscsiProcessScsiDataIn v a inPdu = .ok (r, true, u) ∧
      w.Replied u a p status ∧ (status = none → false ∈ w.allocs ∨ inPdu.EmptyDataIn)) ∨
    ∃ u, iscsiProcessScsiDataIn v a inPdu = .ok (0, false, u) ∧ w.Prepared u a p := by
  obtain ⟨data, hp⟩ := h.pdu
  obtain ⟨t, hsome⟩ := Option.isSome_iff_exists.1 htask
  unfold iscsiProcessScsiDataIn
  rw [World.deref_eq_ok.2 hp, Outcome.ok_bind]
  simp only [hsome]
  split
  · obtain ⟨u, hrun, hu⟩ := h.answer ht scsiStatusError (-1)
    refine .inl ⟨-1, u, _, ?_, hu, fun h => absurd h (Option.some_ne_none _)⟩
    rw [hrun, Outcome.ok_bind]
  · obtain ⟨r, v₁, hcollect, hv₁, hfail⟩ := @collectData_prepared _ _ _ _ inPdu t h hop
    rw [hcollect, Outcome.ok_bind]
    simp only
    split
    · rename_i hr
      exact .inl ⟨-1, v₁, none, rfl, hv₁.unanswered, fun _ => hfail hr⟩
    split
    · exact .inr ⟨v₁, rfl, hv₁⟩
    · obtain ⟨data₁, hp₁⟩ := hv₁.pdu
      rw [World.deref_eq_ok.2 hp₁, Outcome.ok_bind]
      obtain ⟨u, hrun, hu⟩ := ((hv₁.modifyTask t (·.withResidual inPdu)).takeIndata hp₁ t).answer ht
        (byte inPdu.hdr 3).toNat 0
      refine .inl ⟨0, u, _, ?_, hu, fun h => absurd h (Option.some_ne_none _)⟩
      rw [hrun, Outcome.ok_bind]

/-! ## All replies -/

/-- A handler completed the request, or left it waiting, or there is none for the opcode. -/
inductive World.Handled (w : World) (a : Addr) (p : Pdu) (inPdu : InPdu) :
    Option (Int × Bool × World) → Prop
  | unknown : World.Handled w a p inPdu none
  | replied (r : Int) (u : World) (status : Option Status) (h : w.Replied u a p status)
      (hlost : status = none → false ∈ w.allocs ∨ inPdu.EmptyDataIn) :
      World.Handled w a p inPdu (some (r, true, u))
  | waits (u : World) (h : w.Prepared u a p) : World.Handled w a p inPdu (some (0, false, u))

/-- A callback that says that all is well. -/
theorem World.Prepared.good (h : w.Prepared v a p) (ht : p.HasTask) : ∃ u,
    invokeCallback v a scsiStatusGood = .ok u ∧ w.Handled a p inPdu (some (0, true, u)) := by
  obtain ⟨u, hrun, hu⟩ := h.invoke ht scsiStatusGood
  exact ⟨u, hrun, .replied 0 u _ hu fun h => absurd h (Option.some_ne_none _)⟩

/-- The reply to a NOP-Out. -/
theorem nopOut_replies (hs : w.Session) (h : w.Prepared v a p) (ha : a ∈ w.iscsi.waitpdu)
    (ht : p.HasTask) : ∃ d u, iscsiProcessNopOutReply v a inPdu = .ok (d, u) ∧
      w.Handled a p inPdu (some (0, true, u)) := by
  obtain ⟨data, hp⟩ := h.pdu
  unfold iscsiProcessNopOutReply
  rw [h.waitpdu]
  cases hwait : w.iscsi.waitpdu with
  | nil => exact absurd (hwait ▸ ha) List.not_mem_nil
  | cons head rest =>
    have hhead : ∃ oldest, v.pdus head = some oldest := by
      obtain ⟨oldest, holdest, -⟩ := hs.live head (hwait ▸ List.mem_cons_self)
      by_cases heq : head = a
      · exact ⟨_, heq ▸ hp⟩
      · exact ⟨oldest, (h.others head heq).trans holdest⟩
    obtain ⟨oldest, holdest⟩ := hhead
    simp only [World.deref_eq_ok.2 holdest, World.deref_eq_ok.2 hp, Outcome.ok_bind]
    have hv : w.Prepared ((if oldest.cmdsn = v.iscsi.minCmdsnWaiting ∧
        v.ignoreNopOutOnStuckWaitpduQueue then v
        else v.modify fun c => { c with nopsInFlight := 0 }).modify fun c =>
          { c with minCmdsnWaiting := oldest.cmdsn }) a p := by
      split
      · exact h.modify rfl
      · exact (h.modify rfl).modify rfl
    cases hcb : p.callback with
    | none =>
      exact ⟨none, _, rfl, .replied 0 _ (some scsiStatusGood) (hv.noCallback hcb _)
        fun h => absurd h (Option.some_ne_none _)⟩
    | some cb =>
      obtain ⟨u, hrun, hu⟩ := @World.Prepared.good _ _ _ _ inPdu hv ht
      refine ⟨some (if inPdu.dataPos ≠ 0 then inPdu.payload else []), u, ?_, hu⟩
      simp only [hrun, Outcome.ok_bind]

/-- **Every handler completes the request, or leaves it waiting.** -/
theorem processReply_handled {service : World → Res World} (hs : w.Session)
    (h : w.Prepared v a p) (ha : a ∈ w.iscsi.waitpdu) (hp : p.Answerable)
    (hr2t : inPdu.opcode ≠ iscsiPduR2t)
    (hexpected : inPdu.opcode = p.expectedResponse inPdu.opcode) :
    ∃ x, processReply service v inPdu a = .ok x ∧ w.Handled a p inPdu x := by
  have hresponse : inPdu.opcode ≠ iscsiPduDataIn → p.responseOpcode = inPdu.opcode := by
    intro hdataIn
    unfold Pdu.expectedResponse at hexpected
    rw [if_neg hr2t, if_neg fun h => hdataIn h.1] at hexpected
    exact hexpected.symm
  unfold processReply
  by_cases hlogout : inPdu.opcode = iscsiPduLogoutResponse
  · rw [if_pos hlogout]
    obtain ⟨u, hrun, hu⟩ := @World.Prepared.good _ _ _ _ inPdu
      (@World.Prepared.modify _ _ _ _ h (fun c => { c with isLoggedin := false }) rfl) hp.hasTask
    unfold iscsiProcessLogoutReply
    rw [hrun]
    exact ⟨_, rfl, hu⟩
  rw [if_neg hlogout]
  by_cases hscsi : inPdu.opcode = iscsiPduScsiResponse
  · rw [if_pos hscsi]
    have htask := hp.task ((hresponse (by rw [hscsi]; decide)).trans hscsi)
    obtain ⟨r, u, status, hrun, hu, hlost⟩ := @scsiReply_replies _ _ _ _ inPdu h hp.hasTask htask
    rw [hrun]
    exact ⟨_, rfl, .replied _ _ status hu fun h => .inl (hlost h)⟩
  rw [if_neg hscsi]
  by_cases hdataIn : inPdu.opcode = iscsiPduDataIn
  · rw [if_pos hdataIn]
    have htask : p.scsiCbdata.task.isSome := by
      refine hp.task ?_
      by_contra hne
      unfold Pdu.expectedResponse at hexpected
      rw [if_neg hr2t, if_neg fun h => hne h.2] at hexpected
      exact hp.noDataIn (hexpected.symm.trans hdataIn)
    rcases dataIn_replies h hp.hasTask htask hdataIn with
      ⟨r, u, status, hrun, hu, hlost⟩ | ⟨u, hrun, hu⟩
    · rw [hrun]
      exact ⟨_, rfl, .replied _ _ status hu hlost⟩
    · rw [hrun]
      exact ⟨_, rfl, .waits _ hu⟩
  rw [if_neg hdataIn]
  by_cases hnop : inPdu.opcode = iscsiPduNopIn
  · rw [if_pos hnop]
    obtain ⟨d, u, hrun, hu⟩ := @nopOut_replies _ _ _ _ inPdu hs h ha hp.hasTask
    rw [hrun]
    exact ⟨_, rfl, hu⟩
  rw [if_neg hnop]
  by_cases htmf : inPdu.opcode = iscsiPduScsiTaskManagementResponse
  · rw [if_pos htmf]
    obtain ⟨u, hrun, hu⟩ := @World.Prepared.good _ _ _ _ inPdu h hp.hasTask
    unfold iscsiProcessTaskMgmtReply
    rw [hrun]
    exact ⟨_, rfl, hu⟩
  rw [if_neg htmf, if_neg hr2t]
  exact ⟨_, rfl, .unknown⟩

end

/-! ## One PDU -/

/-- What a PDU does to the requests: one that has its tag is completed, or all go on waiting. The
callback is called unless an allocation failed, or a Data-In had no data. -/
inductive World.Step (w w' : World) (inPdu : InPdu) : Prop
  | waits (hwaitpdu : w'.iscsi.waitpdu = w.iscsi.waitpdu) (htrace : w'.trace = w.trace)
      (hallocs : w'.allocs <:+ w.allocs) (hkeeps : ∀ b, w.Keeps w' b) : World.Step w w' inPdu
  | completes (a : Addr) (p : Pdu) (status : Option Status) (ha : a ∈ w.iscsi.waitpdu)
      (hp : w.pdus a = some p) (htag : p.itt = inPdu.tag)
      (hlost : status = none → false ∈ w.allocs ∨ inPdu.EmptyDataIn)
      (h : w.Finished w' a p status) : World.Step w w' inPdu

section
variable {w v w' : World} {a : Addr} {p : Pdu} {inPdu : InPdu}

/-- A request that goes on waiting. -/
theorem World.Prepared.step (h : w.Prepared v a p) (hp : w.pdus a = some p) : w.Step v inPdu := by
  refine .waits h.waitpdu h.trace h.allocs fun b => ?_
  by_cases hb : b = a
  · obtain ⟨data, hpdu⟩ := h.pdu
    exact ⟨fun _ => data, by rw [hb, hpdu, hp]; rfl⟩
  · exact .of_eq (h.others b hb)

/-- After its handler the request is dropped, or waits. -/
theorem World.Handled.finish {x : Option (Int × Bool × World)} (h : w.Handled a p inPdu x)
    (hv : w.Prepared v a p) (ha : a ∈ w.iscsi.waitpdu) (hp : w.pdus a = some p)
    (htag : p.itt = inPdu.tag) : ∃ r w', finishReply v a x = .ok (r, w') ∧ w.Step w' inPdu := by
  cases h with
  | unknown => exact ⟨-1, v, rfl, hv.step hp⟩
  | replied r u status h hlost =>
    obtain ⟨u', hdrop, hu'⟩ := h.drop ha
    have hne : u.iscsi.waitpdu ≠ [] := by
      rw [h.waitpdu]
      exact List.ne_nil_of_mem ha
    have hstep : w.Step u' inPdu := .completes a p status ha hp htag hlost hu'
    unfold finishReply
    simp only
    by_cases hr : r ≠ 0
    · rw [if_pos hr, hdrop]
      exact ⟨-1, u', rfl, hstep⟩
    · rw [if_neg hr, if_pos ⟨trivial, hne⟩, hdrop]
      exact ⟨0, u', rfl, hstep⟩
  | waits u h => exact ⟨0, u, rfl, h.step hp⟩

/-- **One PDU.** The run goes on without a fault. -/
theorem reply_step {service : World → Res World} (hs : w.Session) {q : SessionPdu}
    (hq : q.1.Replies) :
    ∃ r w', iscsiProcessPdu service w q = .ok (r, w') ∧ w.Step w' q.1 := by
  have hwait : (iscsiProcessAnyPduSerials w.iscsi q.1).waitpdu = w.iscsi.waitpdu := by
    rw [process_frame]
  have hprepared : ∀ {a : Addr} {p : Pdu}, w.pdus a = some p →
      w.Prepared (w.modify (iscsiProcessAnyPduSerials · q.1)) a p := fun hp =>
    (World.Prepared.refl hp).modify hwait
  have hsame : w.Step (w.modify (iscsiProcessAnyPduSerials · q.1)) q.1 :=
    .waits hwait rfl List.suffix_rfl fun b => .of_eq rfl
  have hlive : ∀ a ∈ (w.modify (iscsiProcessAnyPduSerials · q.1)).iscsi.waitpdu,
      ((w.modify (iscsiProcessAnyPduSerials · q.1)).pdus a).isSome := by
    intro a ha
    obtain ⟨p, hp, -⟩ := hs.live a (hwait ▸ ha)
    exact Option.isSome_iff_exists.2 ⟨p, hp⟩
  have hfound : ∀ {itt : UInt32} {a : Addr},
      (w.modify (iscsiProcessAnyPduSerials · q.1)).iscsi.waitpdu.find?
        ((w.modify (iscsiProcessAnyPduSerials · q.1)).selects (hasItt itt)) = some a →
      a ∈ w.iscsi.waitpdu ∧ ∃ p, w.pdus a = some p ∧ p.Answerable ∧ p.itt = itt := by
    intro itt a hfind
    have ha : a ∈ w.iscsi.waitpdu := hwait ▸ List.mem_of_find?_eq_some hfind
    obtain ⟨p, hp, hanswerable⟩ := hs.live a ha
    have hselects := List.find?_some hfind
    simp only [World.selects, World.modify_pdus, hp, hasItt, beq_iff_eq] at hselects
    exact ⟨ha, p, hp, hanswerable, hselects⟩
  unfold iscsiProcessPdu
  simp only
  rw [if_neg hq.noAsyncMsg]
  by_cases hreject : q.1.opcode = iscsiPduReject
  · have htag : q.1.tag = q.1.rejectedItt := if_pos hreject
    rw [if_pos hreject]
    unfold iscsiProcessReject
    split
    · exact ⟨-1, _, rfl, hsame⟩
    rw [if_neg (hq.noLogout hreject), findItt_eq _ hlive, Outcome.ok_bind]
    split
    · exact ⟨-1, _, rfl, hsame⟩
    · rename_i a hfind
      obtain ⟨ha, p, hp, hanswerable, hitt⟩ := hfound hfind
      obtain ⟨u, hrun, hu⟩ := (hprepared hp).invoke hanswerable.hasTask scsiStatusError
      obtain ⟨u', hdrop, hu'⟩ := hu.drop ha
      rw [hrun, Outcome.ok_bind, hdrop, Outcome.ok_bind]
      exact ⟨0, u', rfl, .completes a p _ ha hp (hitt.trans htag.symm)
        (fun h => absurd h (Option.some_ne_none _)) hu'⟩
  have htag : q.1.tag = q.1.itt := if_neg hreject
  rw [if_neg hreject]
  split
  · rename_i hnop
    unfold iscsiProcessTargetNopIn
    rw [if_pos (hq.noNopOut hnop.1 hnop.2)]
    exact ⟨0, _, rfl, hsame⟩
  rw [findItt_eq _ hlive, Outcome.ok_bind]
  split
  · exact ⟨-1, _, rfl, hsame⟩
  · rename_i a hfind
    obtain ⟨ha, p, hp, hanswerable, hitt⟩ := hfound hfind
    rw [World.deref_eq_ok.2 (show (w.modify _).pdus a = some p from hp), Outcome.ok_bind]
    split
    · exact ⟨-1, _, rfl, hsame⟩
    · rename_i hexpected
      obtain ⟨x, hrun, hx⟩ := @processReply_handled _ _ _ _ _ service hs (hprepared hp) ha
        hanswerable hq.noR2t (not_not.1 hexpected)
      rw [hrun, Outcome.ok_bind]
      exact hx.finish (hprepared hp) ha hp (hitt.trans htag.symm)

end

/-! ## Many PDUs -/

/-- The callback of a PDU, or its release. -/
def Event.isOf (a : Addr) (e : Event) : Bool := e.isCallbackOf a || e.isFreeOf a

/-- The calls of a callback, at most one. -/
def Pdu.call (p : Pdu) (a : Addr) (status : Option Status) : List Event :=
  match p.callback, status with
  | some cb, some status => [.callback a cb status p.privateData]
  | _, _ => []

/-- What has become of an address in a run over PDUs, with the events of the run. A request that
waited still waits, and nothing was heard of it; or it was completed because of a PDU with its tag:
its callback was called once, it was freed once, and that was all. The callback was not called only
where an allocation failed, or a Data-In had no data. -/
inductive World.Fate (w w' : World) (l : List SessionPdu) (new : List Event) (a : Addr) : Prop
  | absent (ha : a ∉ w.iscsi.waitpdu) (ha' : a ∉ w'.iscsi.waitpdu)
      (hquiet : new.filter (Event.isOf a) = []) (hkeeps : w.Keeps w' a) : World.Fate w w' l new a
  | waits (ha : a ∈ w.iscsi.waitpdu) (ha' : a ∈ w'.iscsi.waitpdu)
      (hquiet : new.filter (Event.isOf a) = []) (hkeeps : w.Keeps w' a) : World.Fate w w' l new a
  | completed (p : Pdu) (status : Option Status) (ha : a ∈ w.iscsi.waitpdu)
      (hp : w.pdus a = some p) (htag : ∃ q ∈ l, q.1.tag = p.itt)
      (hlost : status = none → false ∈ w.allocs ∨ ∃ q ∈ l, q.1.EmptyDataIn)
      (ha' : a ∉ w'.iscsi.waitpdu) (hfreed : w'.pdus a = none)
      (hevents : new.filter (Event.isOf a) = p.call a status ++ [.free a]) : World.Fate w w' l new a

section
variable {w w₁ w' : World} {a b : Addr} {p : Pdu} {q : SessionPdu} {l : List SessionPdu}

/-- The events of a completion. -/
theorem filter_completion (status : Option Status) :
    (p.replyEvents a status ++ [Event.free a]).filter (Event.isOf b) =
      if b = a then p.call a status ++ [Event.free a] else [] := by
  unfold Pdu.replyEvents Pdu.callbackEvents Pdu.call
  by_cases hb : b = a
  · subst hb
    rw [if_pos rfl]
    cases status <;> cases p.callback with
    | none => simp [Event.isOf, Event.isFreeOf]
    | some cb =>
      cases cb <;> cases p.scsiCbdata.callback <;> cases p.scsiCbdata.task <;>
        simp [Event.isOf, Event.isFreeOf, Event.isCallbackOf]
  · have hab : a ≠ b := Ne.symm hb
    rw [if_neg hb]
    cases status <;> cases p.callback with
    | none => simp [Event.isOf, Event.isFreeOf, hab, Event.isCallbackOf]
    | some cb =>
      cases cb <;> cases p.scsiCbdata.callback <;> cases p.scsiCbdata.task <;>
        simp [Event.isOf, Event.isFreeOf, Event.isCallbackOf, hab]

theorem World.Keeps.trans (h : w.Keeps w₁ a) (h' : w₁.Keeps w' a) : w.Keeps w' a := by
  obtain ⟨data, h⟩ := h
  obtain ⟨data', h'⟩ := h'
  refine ⟨fun p => data' { p with indata := data p }, ?_⟩
  rw [h', h]
  cases w.pdus a <;> rfl

/-- The requests can still be completed. -/
theorem World.Step.session (h : w.Step w' q.1) (hs : w.Session) : w'.Session := by
  cases h with
  | waits hwaitpdu htrace hallocs hkeeps =>
    refine ⟨hwaitpdu ▸ hs.nodup, fun a ha => ?_⟩
    obtain ⟨p, hp, hanswerable⟩ := hs.live a (hwaitpdu ▸ ha)
    obtain ⟨data, hpdu⟩ := hkeeps a
    rw [hp] at hpdu
    exact ⟨_, hpdu, hanswerable.hasTask, hanswerable.task, hanswerable.noDataIn⟩
  | completes b p status hb hp htag hlost h =>
    refine ⟨h.waitpdu ▸ hs.nodup.erase b, fun a ha => ?_⟩
    rw [h.waitpdu, hs.nodup.mem_erase_iff] at ha
    obtain ⟨p', hp', hanswerable⟩ := hs.live a ha.2
    exact ⟨p', (h.others a ha.1).trans hp', hanswerable⟩

theorem World.Step.allocs (h : w.Step w' q.1) : w'.allocs <:+ w.allocs := by
  cases h with
  | waits _ _ hallocs _ => exact hallocs
  | completes _ _ _ _ _ _ _ h => exact h.allocs

/-- What becomes of an address because of one PDU. -/
theorem World.Step.fate (h : w.Step w' q.1) (hs : w.Session) : ∃ new,
    w'.trace = w.trace ++ new ∧ ∀ a, w.Fate w' (q :: l) new a := by
  cases h with
  | waits hwaitpdu htrace hallocs hkeeps =>
    refine ⟨[], htrace.trans (List.append_nil _).symm, fun a => ?_⟩
    by_cases ha : a ∈ w.iscsi.waitpdu
    · exact .waits ha (hwaitpdu ▸ ha) rfl (hkeeps a)
    · exact .absent ha (hwaitpdu ▸ ha) rfl (hkeeps a)
  | completes b p status hb hp htag hlost h =>
    refine ⟨_, h.trace, fun a => ?_⟩
    have hfilter := @filter_completion b a p status
    by_cases hab : a = b
    · subst hab
      rw [if_pos rfl] at hfilter
      refine .completed p status hb hp ⟨q, List.mem_cons_self, htag.symm⟩ (fun hnone => ?_) ?_ h.pdu
        hfilter
      · exact (hlost hnone).imp_right fun hempty => ⟨q, List.mem_cons_self, hempty⟩
      · rw [h.waitpdu]
        exact hs.nodup.not_mem_erase
    · rw [if_neg hab] at hfilter
      have hmem : a ∈ w'.iscsi.waitpdu ↔ a ∈ w.iscsi.waitpdu := by
        rw [h.waitpdu, List.mem_erase_of_ne hab]
      have hkeeps := World.Keeps.of_eq (h.others a hab)
      by_cases ha : a ∈ w.iscsi.waitpdu
      · exact .waits ha (hmem.2 ha) hfilter hkeeps
      · exact .absent ha (mt hmem.1 ha) hfilter hkeeps

/-- What becomes of an address because of one PDU and those after it. -/
theorem World.Fate.trans {new new' : List Event} (h : w.Fate w₁ (q :: l) new a)
    (h' : w₁.Fate w' l new' a) (hallocs : w₁.allocs <:+ w.allocs) :
    w.Fate w' (q :: l) (new ++ new') a := by
  have hcons : ∀ {P : SessionPdu → Prop}, (∃ q' ∈ l, P q') → ∃ q' ∈ q :: l, P q' :=
    fun ⟨q', hq', h⟩ => ⟨q', List.mem_cons_of_mem _ hq', h⟩
  cases h with
  | absent ha ha₁ hquiet hkeeps =>
    cases h' with
    | absent _ ha' hquiet' hkeeps' =>
      exact .absent ha ha' (by rw [List.filter_append, hquiet, hquiet']; rfl) (hkeeps.trans hkeeps')
    | waits h _ _ _ => exact absurd h ha₁
    | completed _ _ h _ _ _ _ _ _ => exact absurd h ha₁
  | waits ha ha₁ hquiet hkeeps =>
    cases h' with
    | absent h _ _ _ => exact absurd ha₁ h
    | waits _ ha' hquiet' hkeeps' =>
      exact .waits ha ha' (by rw [List.filter_append, hquiet, hquiet']; rfl) (hkeeps.trans hkeeps')
    | completed p status _ hp htag hlost ha' hfreed hevents =>
      -- the request has only collected data since
      obtain ⟨data, hpdu⟩ := hkeeps
      obtain ⟨p₀, hp₀, rfl⟩ := Option.map_eq_some_iff.1 (hpdu.symm.trans hp)
      refine .completed p₀ status ha hp₀ (hcons htag) (fun hnone => ?_) ha' hfreed ?_
      · exact (hlost hnone).imp hallocs.mem hcons
      · rw [List.filter_append, hquiet, hevents]
        rfl
  | completed p status ha hp htag hlost ha₁ hfreed hevents =>
    cases h' with
    | absent _ ha' hquiet' hkeeps' =>
      obtain ⟨data, hpdu⟩ := hkeeps'
      refine .completed p status ha hp htag hlost ha' (by rw [hpdu, hfreed]; rfl) ?_
      rw [List.filter_append, hevents, hquiet', List.append_nil]
    | waits h _ _ _ => exact absurd h ha₁
    | completed _ _ h _ _ _ _ _ _ => exact absurd h ha₁

/-- A run over PDUs, and what becomes of the requests. -/
theorem processPdus_fate {service : World → Res World} (hs : w.Session)
    (hl : ∀ q ∈ l, q.1.Replies) : ∃ r w' new, processPdus service w l = .ok (r, w') ∧
      w'.trace = w.trace ++ new ∧ ∀ a, w.Fate w' l new a := by
  induction l generalizing w with
  | nil =>
    refine ⟨0, w, [], rfl, (List.append_nil _).symm, fun a => ?_⟩
    by_cases ha : a ∈ w.iscsi.waitpdu
    · exact .waits ha ha rfl (.of_eq rfl)
    · exact .absent ha ha rfl (.of_eq rfl)
  | cons q l ih =>
    obtain ⟨hq, hrest⟩ := List.forall_mem_cons.1 hl
    obtain ⟨r, w₁, hrun, hstep⟩ := @reply_step w service hs q hq
    obtain ⟨new, htrace, hfate⟩ := @World.Step.fate _ _ _ l hstep hs
    unfold processPdus
    rw [hrun, Outcome.ok_bind]
    by_cases hr : r ≠ 0
    · exact ⟨r, w₁, new, if_pos hr, htrace, hfate⟩
    · obtain ⟨r', w', new', hrun', htrace', hfate'⟩ := ih (hstep.session hs) hrest
      refine ⟨r', w', new ++ new', (if_neg hr).trans hrun', ?_, fun a => ?_⟩
      · rw [htrace', htrace, List.append_assoc]
      · exact (hfate a).trans (hfate' a) hstep.allocs

/-- **Every request is completed at most once, and by a PDU of its own.** Whatever replies and
Rejects come, in whatever order, and with whatever tags, the run does without a fault, and each
request that waited has one of its two fates. -/
theorem replies_complete {service : World → Res World} (hs : w.Session)
    (hl : ∀ q ∈ l, q.1.Replies) : ∃ r w', processPdus service w l = .ok (r, w') ∧
      ∀ a, w.Fate w' l (w.newEvents w') a := by
  obtain ⟨r, w', new, hrun, htrace, hfate⟩ := @processPdus_fate w l service hs hl
  refine ⟨r, w', hrun, fun a => ?_⟩
  unfold World.newEvents
  rw [htrace, List.drop_left]
  exact hfate a

end

/-- A reply to a command with tag 5, and a Reject of something else. -/
def twoReplies : List SessionPdu :=
  [⟨{ hdr := (dataInHdr 0x80 0 0).set 0 iscsiPduScsiResponse }, by decide⟩,
    ⟨{ hdr := (dataInHdr 0x80 0 0).set 0 iscsiPduReject, dataPos := 48 }, by decide⟩]

/-- A command waits, and two PDUs come. -/
theorem replies_complete_two : ∃ r w', processPdus .ok readWorld twoReplies = .ok (r, w') ∧
    ∀ a, readWorld.Fate w' twoReplies (readWorld.newEvents w') a := by
  refine replies_complete ⟨by decide, fun a ha => ?_⟩ ?_
  · obtain rfl := List.mem_singleton.1 ha
    exact ⟨readPdu, rfl, fun _ => rfl, fun _ => rfl, by decide⟩
  · unfold twoReplies
    rw [List.forall_mem_cons, List.forall_mem_singleton]
    constructor <;> constructor <;> decide

end Libiscsi
