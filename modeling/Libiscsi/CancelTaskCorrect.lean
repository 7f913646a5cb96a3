import Libiscsi.CancelTask

/-!
# Cancelling one task

A cancellation that returns 0 should have completed the task and nothing else (`TaskCancelled`).
It completes one PDU with the tag of the task in each context that it searches, gives the CmdSN of
a queued command back without renumbering the commands behind it, and stops at a PDU that waits for
its response. So it cancels the task exactly when in each context at most one PDU has the tag, in
a place where it is found, with no command behind it, and one of these PDUs has a callback
(`iscsiScsiCancelTask_cancels_iff`).
-/

namespace Libiscsi

/-! ## What a cancellation should do -/

/-- The event is the release of a PDU. -/
def Event.isFree : Event → Bool
  | .free _ => true
  | _ => false

/-- The PDU at an address has a callback. -/
def World.hasCallback (w : World) (a : Addr) : Bool :=
  match w.pdus a with
  | some p => p.callback.isSome
  | none => false

/-- A context without its own PDUs, and with their CmdSNs given back. -/
structure Context.Without (own cmd : Addr → Bool) (c c' : Context) : Prop where
  outqueue : c'.outqueue = c.outqueue.filter fun a => !own a
  waitpdu : c'.waitpdu = c.waitpdu.filter fun a => !own a
  current : c'.outqueueCurrent = c.outqueueCurrent.filter fun a => !own a
  cmdsn : c'.cmdsn = c.cmdsn - UInt32.ofNat (c.outqueue.countP fun a => own a && cmd a)

/-- What a cancellation that returned 0 should have done: the PDUs that carry the tag of the task
are out of all queues, and each was freed once; the other PDUs are where they were, and the same
but for their CmdSNs; a command has a CmdSN that is smaller by the number of commands that were
taken out before it; and the events are, but for the releases, those of one call of the callback of
one of the task's PDUs, with `SCSI_STATUS_CANCELLED`. -/
structure TaskCancelled (t : TaskPtr) (w w' : World) : Prop where
  contexts : List.Forall₂ (Context.Without (w.own t) w.isCommandAt) w.contexts w'.contexts
  freed : ∀ c ∈ w.contexts, ∀ a ∈ c.addrs, w.own t a = true → w'.pdus a = none ∧
    (w.newEvents w').filter (Event.isFreeOf a) = [.free a]
  others : ∀ c ∈ w.contexts, ∀ a ∈ c.addrs, w.own t a = false →
    Option.Rel Pdu.Renumbered (w.pdus a) (w'.pdus a)
  renumbered : ∀ c ∈ w.contexts, ∀ l₁ a l₂, c.outqueue = l₁ ++ a :: l₂ → w.own t a = false →
    ∀ p, w.pdus a = some p → p.isCommand → ∃ q, w'.pdus a = some q ∧
      q.cmdsn = p.cmdsn - UInt32.ofNat (l₁.countP fun b => w.own t b && w.isCommandAt b)
  called : ∃ c ∈ w.contexts, ∃ a ∈ c.addrs, w.own t a = true ∧ ∃ p, w.pdus a = some p ∧
    p.callback.isSome ∧
    (w.newEvents w').filter (fun e => !e.isFree) = p.callbackEvents a scsiStatusCancelled

/-- No PDU of the contexts carries the tag of the task. -/
def World.Absent (w : World) (t : TaskPtr) : Prop :=
  ∀ c ∈ w.contexts, ∀ a ∈ c.addrs, w.own t a = false

/-- Cancellation of a task is complete and local. -/
def CancelsTask (t : TaskPtr) (w : World) : Prop :=
  ∃ r w', iscsiScsiCancelTask w t = .ok (r, w') ∧ (r = 0 → TaskCancelled t w w') ∧
    (w.Absent t → r = -1 ∧ w' = w)

/-! ## The condition -/

/-- At most one PDU of a context carries the tag, and where the search finds it. -/
structure Context.Lone (own : Addr → Bool) (c : Context) : Prop where
  outqueue : (c.outqueue.filter own).length ≤ 1
  waitpdu : (c.waitpdu.filter own).length ≤ 1
  both : c.waitpdu.any own = true → ∀ a ∈ c.outqueue, own a = false
  current : ∀ a, c.outqueueCurrent = some a → own a = true → a ∈ c.waitpdu

/-- No command stands behind one with the tag. -/
def Context.NoneBehind (own cmd : Addr → Bool) (c : Context) : Prop :=
  ∀ l₁ a l₂, c.outqueue = l₁ ++ a :: l₂ → own a = true → cmd a = true → ∀ b ∈ l₂, cmd b = false

/-- In each context at most one PDU has the tag, in a place where it is found; if it waits for its
response, the older contexts have none; a queued command with the tag has no command behind it; and
one of the PDUs with the tag has a callback. -/
structure World.LoneTask (w : World) (t : TaskPtr) : Prop where
  lone : ∀ c ∈ w.contexts, c.Lone (w.own t)
  older : w.contexts.Pairwise fun c old =>
    c.waitpdu.any (w.own t) = true → ∀ a ∈ old.addrs, w.own t a = false
  behind : ∀ c ∈ w.contexts, c.NoneBehind (w.own t) w.isCommandAt
  callback : ∃! a, (∃ c ∈ w.contexts, a ∈ c.addrs) ∧ w.own t a = true ∧ w.hasCallback a = true

/-! ## The PDUs that are completed -/

namespace Context

variable {own cmd : Addr → Bool} {c c' : Context} {cs cs' : List Context} {a : Addr}

theorem mem_picks_of_lone (h : c.Lone own) (ha : a ∈ c.addrs) (ho : own a = true) :
    a ∈ c.picks own := by
  have htake : ∀ {l : List Addr}, (l.filter own).length ≤ 1 → a ∈ l → a ∈ (l.filter own).take 1 :=
    fun hl hm => mem_take_one_of_length_le hl (List.mem_filter.2 ⟨hm, ho⟩)
  have hwait : a ∈ c.waitpdu → a ∈ c.picks own := fun hm => by
    rw [picks, if_pos (List.any_eq_true.2 ⟨a, hm, ho⟩)]
    exact htake h.waitpdu hm
  simp only [addrs, List.mem_append, Option.mem_toList] at ha
  rcases ha with (ha | ha) | ha
  · have hany : ¬c.waitpdu.any own = true := fun hany => by simp [h.both hany a ha] at ho
    rw [picks, if_neg hany]
    exact htake h.outqueue ha
  · exact hwait ha
  · exact hwait (h.current a ha ho)

/-- A context of which all own PDUs are completed has at most one. -/
theorem lone_of_mem_picks (hnd : (c.outqueue ++ c.waitpdu).Nodup)
    (hcur : ∀ a, c.outqueueCurrent = some a → a ∉ c.outqueue)
    (h : ∀ a ∈ c.addrs, own a = true → a ∈ c.picks own) : c.Lone own := by
  have hout : ∀ a ∈ c.outqueue, own a = true → a ∈ c.picks own := fun a ha =>
    h a (mem_addrs_of_mem (List.mem_append_left _ ha))
  have hwait : ∀ a ∈ c.waitpdu, own a = true → a ∈ c.picks own := fun a ha =>
    h a (mem_addrs_of_mem (List.mem_append_right _ ha))
  obtain ⟨hndOut, hndWait, hdisj⟩ := List.nodup_append.1 hnd
  unfold picks at h hout hwait
  cases hany : c.waitpdu.any own with
  | true =>
    rw [if_pos hany] at h hout hwait
    have hnone : ∀ a ∈ c.outqueue, own a = false := fun a ha => by
      by_contra ho
      have hm := List.mem_filter.1 (List.mem_of_mem_take (hout a ha (by simpa using ho)))
      exact hdisj a ha a hm.1 rfl
    refine ⟨?_, ?_, fun _ => hnone, fun a hc ho => ?_⟩
    · rw [List.filter_eq_nil_iff.2 fun a ha => by simp [hnone a ha]]
      simp
    · by_contra hl
      obtain ⟨a, ha, hna⟩ := exists_notMem_take_one (hndWait.filter own) hl
      exact hna (hwait a (List.mem_filter.1 ha).1 (List.mem_filter.1 ha).2)
    · have hm := h a (List.mem_append_right _ (Option.mem_toList.2 hc)) ho
      exact (List.mem_filter.1 (List.mem_of_mem_take hm)).1
  | false =>
    rw [hany, if_neg (by simp)] at h hout hwait
    have hnone : ∀ a ∈ c.waitpdu, own a = false := by simpa using hany
    refine ⟨?_, ?_, fun hc => absurd (hany.symm.trans hc) (by simp), fun a hc ho => ?_⟩
    · by_contra hl
      obtain ⟨a, ha, hna⟩ := exists_notMem_take_one (hndOut.filter own) hl
      exact hna (hout a (List.mem_filter.1 ha).1 (List.mem_filter.1 ha).2)
    · rw [List.filter_eq_nil_iff.2 fun a ha => by simp [hnone a ha]]
      simp
    · have hm := h a (List.mem_append_right _ (Option.mem_toList.2 hc)) ho
      exact absurd (List.mem_filter.1 (List.mem_of_mem_take hm)).1 (hcur a hc)

/-- All own PDUs of a chain are completed exactly when in each context at most one has the tag, and
none in a context that the search does not reach. -/
theorem mem_picksAll_iff : ∀ {cs : List Context},
    (∀ c ∈ cs, (c.outqueue ++ c.waitpdu).Nodup) →
    (∀ c ∈ cs, ∀ a, c.outqueueCurrent = some a → a ∉ c.outqueue) →
    cs.Pairwise (fun c d => ∀ a ∈ c.addrs, a ∉ d.addrs) →
    ((∀ c ∈ cs, ∀ a ∈ c.addrs, own a = true → a ∈ picksAll own cs) ↔
      (∀ c ∈ cs, c.Lone own) ∧ cs.Pairwise fun c old =>
        c.waitpdu.any own = true → ∀ a ∈ old.addrs, own a = false)
  | [], _, _, _ => by simp
  | c :: cs, hnd, hcur, hdisj => by
    rw [List.forall_mem_cons] at hnd hcur
    rw [List.pairwise_cons] at hdisj
    have ih := mem_picksAll_iff hnd.2 hcur.2 hdisj.2
    rw [List.pairwise_cons, List.forall_mem_cons, List.forall_mem_cons]
    -- a PDU of an older context is not one that is completed in this one
    have hnot : ∀ d ∈ cs, ∀ a ∈ d.addrs, a ∉ c.picks own := fun d hd a ha hp =>
      hdisj.1 d hd a (mem_addrs_of_mem (mem_of_mem_picks hp).1) ha
    constructor
    · rintro ⟨hc, hcs⟩
      have hstop : c.waitpdu.any own = true → ∀ d ∈ cs, ∀ a ∈ d.addrs, own a = false := by
        intro hany d hd a ha
        by_contra ho
        have hm := hcs d hd a ha (by simpa using ho)
        rw [picksAll, if_pos hany, List.append_nil] at hm
        exact hnot d hd a ha hm
      have hrest : ∀ d ∈ cs, ∀ a ∈ d.addrs, own a = true → a ∈ picksAll own cs := by
        intro d hd a ha ho
        have hm := (List.mem_append.1 (hcs d hd a ha ho)).resolve_left (hnot d hd a ha)
        split at hm
        · cases hm
        · exact hm
      refine ⟨⟨lone_of_mem_picks hnd.1 hcur.1 fun a ha ho => ?_, (ih.1 hrest).1⟩,
        fun d hd hany => hstop hany d hd, (ih.1 hrest).2⟩
      refine (List.mem_append.1 (hc a ha ho)).resolve_right fun hm => ?_
      split at hm
      · cases hm
      · obtain ⟨d, hd, hm, _⟩ := mem_of_mem_picksAll hm
        exact hdisj.1 d hd a ha (mem_addrs_of_mem hm)
    · rintro ⟨⟨hc, hcs⟩, holder, hpair⟩
      refine ⟨fun a ha ho => List.mem_append_left _ (mem_picks_of_lone hc ha ho),
        fun d hd a ha ho => List.mem_append_right _ ?_⟩
      rw [if_neg fun hany => by simp [holder d hd hany a ha] at ho]
      exact ih.2 ⟨hcs, hpair⟩ d hd a ha ho

/-- No PDU is completed twice. -/
theorem nodup_picksAll : ∀ {cs : List Context}, (∀ c ∈ cs, (c.outqueue ++ c.waitpdu).Nodup) →
    cs.Pairwise (fun c d => ∀ a ∈ c.addrs, a ∉ d.addrs) → (picksAll own cs).Nodup
  | [], _, _ => List.nodup_nil
  | c :: cs, hnd, hdisj => by
    rw [List.forall_mem_cons] at hnd
    rw [List.pairwise_cons] at hdisj
    have hpicks : (c.picks own).Nodup := by
      obtain ⟨hout, hwait, _⟩ := List.nodup_append.1 hnd.1
      unfold picks
      split
      · exact (hwait.filter own).sublist (List.take_sublist ..)
      · exact (hout.filter own).sublist (List.take_sublist ..)
    rw [picksAll]
    split
    · rwa [List.append_nil]
    · refine List.nodup_append.2 ⟨hpicks, nodup_picksAll hnd.2 hdisj.2, fun a ha b hb hab => ?_⟩
      obtain ⟨d, hd, hm, _⟩ := mem_of_mem_picksAll hb
      subst hab
      exact hdisj.1 d hd a (mem_addrs_of_mem (mem_of_mem_picks ha).1) (mem_addrs_of_mem hm)

/-- A context of which at most one PDU has the tag is left without it. -/
theorem Picked.without (h : c.Picked own cmd c') (hl : c.Lone own) : c.Without own cmd c' := by
  have hmem : ∀ a ∈ c.addrs, decide (a ∉ c.picks own) = !own a := fun a ha => by
    cases ho : own a with
    | true => simpa using mem_picks_of_lone hl ha ho
    | false => simpa using fun hp => by simp [(mem_of_mem_picks hp).2] at ho
  have hwait : ∀ a ∈ c.waitpdu, a ∈ c.addrs := fun a ha =>
    mem_addrs_of_mem (List.mem_append_right _ ha)
  refine ⟨?_, ?_, ?_, ?_⟩
  · rw [h.outqueue]
    split
    · next hany =>
      exact (List.filter_eq_self.2 fun a ha => by simp [hl.both hany a ha]).symm
    · rfl
  · rw [h.waitpdu]
    exact List.filter_congr fun a ha => hmem a (hwait a ha)
  · rw [h.current]
    rcases hc : c.outqueueCurrent with _ | a
    · rfl
    · have := hmem a (List.mem_append_right _ (by simp [hc]))
      simp only [Option.filter, this]
  · rw [h.cmdsn]
    congr 1
    cases hany : c.waitpdu.any own with
    | true =>
      rw [if_pos rfl, List.countP_eq_zero.2 fun a ha => by simp [hl.both hany a ha]]
      rfl
    | false =>
      rw [if_neg (by simp), picks, hany, if_neg (by simp), List.take_of_length_le hl.outqueue,
        List.countP_filter]
      simp only [Bool.and_comm]

/-- A context without own PDUs stays as it is. -/
theorem without_self (h : ∀ a ∈ c.addrs, own a = false) : c.Without own cmd c := by
  have hout : ∀ a ∈ c.outqueue, own a = false := fun a ha =>
    h a (mem_addrs_of_mem (List.mem_append_left _ ha))
  refine ⟨?_, ?_, ?_, ?_⟩
  · exact (List.filter_eq_self.2 fun a ha => by simp [hout a ha]).symm
  · exact (List.filter_eq_self.2 fun a ha => by
      simp [h a (mem_addrs_of_mem (List.mem_append_right _ ha))]).symm
  · rcases hc : c.outqueueCurrent with _ | a
    · rfl
    · simp [Option.filter, h a (List.mem_append_right _ (by simp [hc]))]
  · rw [List.countP_eq_zero.2 fun a ha => by simp [hout a ha]]
    simp

/-- A chain in each context of which at most one PDU has the tag is left without them. -/
theorem PickedAll.without (h : PickedAll own cmd cs cs') (hl : ∀ c ∈ cs, c.Lone own)
    (holder : cs.Pairwise fun c old =>
      c.waitpdu.any own = true → ∀ a ∈ old.addrs, own a = false) :
    List.Forall₂ (Without own cmd) cs cs' := by
  induction h with
  | nil => exact .nil
  | stop hany hc =>
    rw [List.forall_mem_cons] at hl
    refine .cons (hc.without hl.1) ?_
    exact List.forall₂_same.2 fun d hd =>
      without_self ((List.pairwise_cons.1 holder).1 d hd hany)
  | go hany hc _ ih =>
    rw [List.forall_mem_cons] at hl
    exact .cons (hc.without hl.1) (ih hl.2 (List.pairwise_cons.1 holder).2)

end Context

/-! ## The whole call -/

/-- Of a list without duplicates, an element that is the only one with an image. -/
theorem flatMap_eq_of_unique {α β : Type} {f : α → List β} {a : α} : ∀ {l : List α}, l.Nodup →
    a ∈ l → (∀ b ∈ l, b ≠ a → f b = []) → l.flatMap f = f a
  | b :: l, hnd, ha, h => by
    obtain ⟨hb, hnd⟩ := List.nodup_cons.1 hnd
    have hl : ∀ c ∈ l, c ≠ a → f c = [] := fun c hc => h c (List.mem_cons_of_mem _ hc)
    rw [List.flatMap_cons]
    by_cases hba : b = a
    · subst hba
      rw [List.flatMap_eq_nil_iff.2 fun c hc => hl c hc fun h => hb (h ▸ hc), List.append_nil]
    · rw [h b List.mem_cons_self hba, List.nil_append]
      exact flatMap_eq_of_unique hnd ((List.mem_cons.1 ha).resolve_left (Ne.symm hba)) hl

section
variable {w w' : World} {t : TaskPtr} {a : Addr} {p : Pdu}

/-- The events of a call of a callback are no releases. -/
theorem callbackEvents_filter (p : Pdu) (a : Addr) (status : Status) :
    (p.callbackEvents a status).filter (fun e => !e.isFree) = p.callbackEvents a status := by
  unfold Pdu.callbackEvents
  rcases p.callback with _ | cb
  · rfl
  · rcases p.scsiCbdata.callback with _ | cb' <;> rcases p.scsiCbdata.task with _ | t <;>
      cases cb <;> rfl

/-- The events of a completion but for the release. -/
theorem completionEvents_filter (status : Status) (hp : w.pdus a = some p) :
    (w.completionEvents status a).filter (fun e => !e.isFree) = p.callbackEvents a status := by
  simp only [World.completionEvents, hp, List.filter_append, callbackEvents_filter]
  simp [Event.isFree]

/-- A PDU that has a callback is called back. -/
theorem callback_mem_callbackEvents {status : Status} {cb : Callback} (h : p.callback = some cb) :
    Event.callback a cb status p.privateData ∈ p.callbackEvents a status := by
  simp [Pdu.callbackEvents, h]

/-- The events of a call of a callback are those of one PDU. -/
theorem eq_of_callback_mem {status status' : Status} {b : Addr} {cb : Callback} {d : Nat}
    (h : Event.callback b cb status' d ∈ p.callbackEvents a status) : b = a := by
  unfold Pdu.callbackEvents at h
  rcases hc : p.callback with _ | cb'
  · simp [hc] at h
  · rw [hc] at h
    revert h
    rcases p.scsiCbdata.callback with _ | cb'' <;> rcases p.scsiCbdata.task with _ | t <;>
      cases cb' <;> simp <;> tauto

/-- A PDU of a context is live. -/
theorem World.ChainOk.live (hw : w.ChainOk) {c : Context} (hc : c ∈ w.contexts)
    (ha : a ∈ c.addrs) : ∃ p, w.pdus a = some p := by
  have hq := hw.each c hc
  simp only [Context.addrs, List.mem_append, Option.mem_toList] at ha
  rcases ha with ha | ha
  · obtain ⟨p, hp, _⟩ := hq.live a (List.mem_append.2 ha)
    exact ⟨p, hp⟩
  · exact Option.isSome_iff_exists.1 (hq.current a ha).2

/-- All PDUs of the task are completed exactly when they are alone in their contexts. -/
theorem World.ChainOk.mem_picksAll_iff (hw : w.ChainOk) (own : Addr → Bool) :
    (∀ c ∈ w.contexts, ∀ a ∈ c.addrs, own a = true → a ∈ Context.picksAll own w.contexts) ↔
      (∀ c ∈ w.contexts, c.Lone own) ∧ w.contexts.Pairwise fun c old =>
        c.waitpdu.any own = true → ∀ a ∈ old.addrs, own a = false :=
  Context.mem_picksAll_iff (fun c hc => (hw.each c hc).nodup)
    (fun c hc a ha => ((hw.each c hc).current a ha).1) hw.disjoint

/-- A task whose PDUs are alone in their contexts is cancelled. -/
theorem taskCancelled_of_lone (hw : w.ChainOk) (hl : w.LoneTask t)
    (h : ChainSpec (w.own t) w.isCommandAt w w') : TaskCancelled t w w' := by
  set own := w.own t with hown
  have hall := (hw.mem_picksAll_iff own).2 ⟨hl.lone, hl.older⟩
  have hnd : (Context.picksAll own w.contexts).Nodup :=
    Context.nodup_picksAll (fun c hc => (hw.each c hc).nodup) hw.disjoint
  have hnew : w.newEvents w' = (Context.picksAll own w.contexts).flatMap
      (w.completionEvents scsiStatusCancelled) := by
    rw [World.newEvents, h.trace, List.drop_left]
  have hkept : ∀ a, own a = false → w'.pdus a = w.pdus a := fun a ha => by
    rw [h.pdus, if_neg fun hm => ?_]
    obtain ⟨_, _, _, ho⟩ := Context.mem_of_mem_picksAll hm
    simp [ha] at ho
  refine ⟨h.contexts.without hl.lone hl.older, fun c hc a ha ho => ⟨?_, ?_⟩,
    fun c hc a ha ho => ?_, fun c hc l₁ a l₂ hl₁ ho p hp hcmd => ⟨p, ?_, ?_⟩, ?_⟩
  · rw [h.pdus, if_pos (hall c hc a ha ho)]
  · obtain ⟨p, hp⟩ := hw.live hc ha
    rw [hnew, filter_flatMap_of_mem (fun b hb => (completionEvents_other _ hb).2) hnd
      (hall c hc a ha ho), completionEvents_free _ hp]
  · rw [hkept a ho]
    exact HeapRenumbered.refl _ a
  · rw [hkept a ho, hp]
  · -- a command with the tag before it would have it behind
    have hzero : (l₁.countP fun b => own b && w.isCommandAt b) = 0 := by
      rw [List.countP_eq_zero]
      intro b hb hcb
      obtain ⟨hob, hcmdb⟩ := Bool.and_eq_true_iff.1 hcb
      obtain ⟨m₁, m₂, rfl⟩ := List.append_of_mem hb
      have := hl.behind c hc m₁ b (m₂ ++ a :: l₂) (by rw [hl₁]; simp) hob hcmdb a (by simp)
      simp [World.isCommandAt, hp, hcmd] at this
    rw [hzero]
    simp
  · obtain ⟨b, ⟨⟨c, hc, hb⟩, hob, hcb⟩, huniq⟩ := hl.callback
    obtain ⟨p, hp⟩ := hw.live hc hb
    refine ⟨c, hc, b, hb, hob, p, hp, by simpa [World.hasCallback, hp] using hcb, ?_⟩
    rw [hnew, List.filter_flatMap, flatMap_eq_of_unique hnd (hall c hc b hb hob),
      completionEvents_filter _ hp]
    intro d hd hdb
    obtain ⟨e, he, hde, hod⟩ := Context.mem_of_mem_picksAll hd
    have hde' := Context.mem_addrs_of_mem hde
    obtain ⟨q, hq⟩ := hw.live he hde'
    rw [completionEvents_filter _ hq]
    rcases hcq : q.callback with _ | cb
    · simp [Pdu.callbackEvents, hcq]
    · exact absurd (huniq d ⟨⟨e, he, hde'⟩, hod, by simp [World.hasCallback, hq, hcq]⟩) hdb

/-- The PDUs of a task that is cancelled are alone in their contexts. -/
theorem lone_of_taskCancelled (hw : w.ChainOk) (h : ChainSpec (w.own t) w.isCommandAt w w')
    (hc : TaskCancelled t w w') : w.LoneTask t := by
  have hall : ∀ c ∈ w.contexts, ∀ a ∈ c.addrs, w.own t a = true →
      a ∈ Context.picksAll (w.own t) w.contexts := fun c hc' a ha ho => by
    by_contra hna
    obtain ⟨p, hp⟩ := hw.live hc' ha
    have hfreed := (hc.freed c hc' a ha ho).1
    rw [h.pdus, if_neg hna, hp] at hfreed
    cases hfreed
  obtain ⟨hlone, holder⟩ := (hw.mem_picksAll_iff _).1 hall
  have hnew : w.newEvents w' = (Context.picksAll (w.own t) w.contexts).flatMap
      (w.completionEvents scsiStatusCancelled) := by
    rw [World.newEvents, h.trace, List.drop_left]
  refine ⟨hlone, holder, fun c hc' l₁ a l₂ hl₁ ho hcmd b hb => ?_, ?_⟩
  · -- the CmdSN of a command behind the one that was taken out is the one it was
    by_contra hcmdb
    rw [Bool.not_eq_false] at hcmdb
    obtain ⟨m₁, m₂, rfl⟩ := List.append_of_mem hb
    have hle := (hlone c hc').outqueue
    have hcount : ∀ l : List Addr, (l.filter (w.own t)).length = l.countP (w.own t) := fun l =>
      (List.countP_eq_length_filter ..).symm
    rw [hcount, hl₁] at hle
    simp only [List.countP_append, List.countP_cons, ho, if_true] at hle
    have hob : w.own t b = false := by
      by_contra hob
      rw [Bool.not_eq_false] at hob
      rw [hob, if_pos rfl] at hle
      omega
    have hone : ((l₁ ++ a :: m₁).countP fun b => w.own t b && w.isCommandAt b) = 1 := by
      have hle₁ : ∀ l : List Addr, (l.countP fun b => w.own t b && w.isCommandAt b) ≤
          l.countP (w.own t) := fun l =>
        List.countP_mono_left fun x _ hx => (Bool.and_eq_true_iff.1 hx).1
      have h₁ := hle₁ l₁
      have h₂ := hle₁ m₁
      simp only [List.countP_append, List.countP_cons, ho, hcmd, Bool.and_self, if_true]
      omega
    obtain ⟨p, hp⟩ := hw.live hc' (a := b)
      (Context.mem_addrs_of_mem (List.mem_append_left _ (by rw [hl₁]; simp)))
    have hcmdp : p.isCommand = true := by simpa [World.isCommandAt, hp] using hcmdb
    obtain ⟨q, hq, hsn⟩ := hc.renumbered c hc' (l₁ ++ a :: m₁) b m₂ (by rw [hl₁]; simp) hob p hp
      hcmdp
    have hnb : b ∉ Context.picksAll (w.own t) w.contexts := fun hm => by
      obtain ⟨_, _, _, ho'⟩ := Context.mem_of_mem_picksAll hm
      simp [hob] at ho'
    rw [h.pdus, if_neg hnb, hp] at hq
    obtain rfl := Option.some.inj hq
    rw [hone] at hsn
    have hne : p.cmdsn - UInt32.ofNat 1 ≠ p.cmdsn := by grind
    exact hne hsn.symm
  · obtain ⟨c, hc', a, ha, ho, p, hp, hcb, hev⟩ := hc.called
    refine ⟨a, ⟨⟨c, hc', ha⟩, ho, by simpa [World.hasCallback, hp] using hcb⟩, ?_⟩
    rintro b ⟨⟨d, hd, hb⟩, hob, hcbb⟩
    obtain ⟨q, hq⟩ := hw.live hd hb
    obtain ⟨cb, hcbq⟩ : ∃ cb, q.callback = some cb := by
      simpa [World.hasCallback, hq, Option.isSome_iff_exists] using hcbb
    have hmem : Event.callback b cb scsiStatusCancelled q.privateData ∈
        (w.newEvents w').filter fun e => !e.isFree := by
      rw [hnew, List.filter_flatMap]
      refine List.mem_flatMap.2 ⟨b, hall d hd b hb hob, ?_⟩
      rw [completionEvents_filter _ hq]
      exact callback_mem_callbackEvents hcbq
    rw [hev] at hmem
    exact eq_of_callback_mem hmem

/-! ## A task that is in no context -/

/-- The loop over `outqueue` finds nothing. -/
theorem unlinkItt_absent {itt : UInt32} {tmp : List Addr} : ∀ {l : List Addr},
    (∀ a ∈ l, (w.pdus a).isSome) → (∀ a ∈ l, w.selects (hasItt itt) a = false) →
    unlinkItt itt l tmp w = .ok (tmp, w)
  | [], _, _ => rfl
  | a :: l, hlive, hsel => by
    obtain ⟨p, hp⟩ := Option.isSome_iff_exists.1 (hlive a List.mem_cons_self)
    have hne : p.itt ≠ itt := by
      simpa [World.selects, hp, hasItt] using hsel a List.mem_cons_self
    rw [unlinkItt, World.deref_eq_ok.2 hp, Outcome.ok_bind, if_neg hne]
    exact unlinkItt_absent (fun b hb => hlive b (List.mem_cons_of_mem _ hb))
      fun b hb => hsel b (List.mem_cons_of_mem _ hb)

/-- A context without PDUs of the task is left as it is. -/
theorem cancelTaskHere_absent (hlive : ∀ a ∈ w.iscsi.addrs, (w.pdus a).isSome)
    (habs : ∀ a ∈ w.iscsi.addrs, w.own t a = false) :
    cancelTaskHere w t = .ok (false, -1, w) := by
  have hout : ∀ a ∈ w.iscsi.outqueue, a ∈ w.iscsi.addrs := fun a ha =>
    Context.mem_addrs_of_mem (List.mem_append_left _ ha)
  have hwait : ∀ a ∈ w.iscsi.waitpdu, a ∈ w.iscsi.addrs := fun a ha =>
    Context.mem_addrs_of_mem (List.mem_append_right _ ha)
  have hfind : w.iscsi.waitpdu.find? (w.selects (hasItt (w.tasks t).itt)) = none :=
    List.find?_eq_none.2 fun a ha => by simpa [World.own] using habs a (hwait a ha)
  simp only [cancelTaskHere, findItt_eq _ fun a ha => hlive a (hwait a ha), hfind, Outcome.ok_bind,
    unlinkItt_absent (fun a ha => hlive a (hout a ha)) fun a ha => habs a (hout a ha), cancelTmp]

/-- A chain of contexts without PDUs of the task is left as it is. -/
theorem cancelTaskFrom_absent : ∀ {olds : List Context} {w : World}, w.olds = olds →
    (∀ c ∈ w.contexts, ∀ a ∈ c.addrs, (w.pdus a).isSome) → w.Absent t →
    cancelTaskFrom olds w t = .ok (-1, w)
  | [], w, _, hlive, habs => by
    simp only [cancelTaskFrom, cancelTaskHere_absent (hlive _ List.mem_cons_self)
      (habs _ List.mem_cons_self), Outcome.ok_bind]
  | old :: olds, w, holds, hlive, habs => by
    have hmem : ∀ c ∈ old :: olds, c ∈ w.contexts := fun c hc =>
      List.mem_cons_of_mem _ (holds ▸ hc)
    have ih := cancelTaskFrom_absent (w := { w with iscsi := old, olds }) (Eq.refl olds)
      (fun c hc => hlive c (hmem c hc)) fun c hc => habs c (hmem c hc)
    simp only [cancelTaskFrom, cancelTaskHere_absent (hlive _ List.mem_cons_self)
      (habs _ List.mem_cons_self), Outcome.ok_bind, Bool.false_eq_true, if_false, holds, ih]
    rw [← holds]

/-- Nothing is found in a chain of contexts without PDUs of the task. -/
theorem Context.found_absent {own : Addr → Bool} : ∀ {cs : List Context},
    (∀ c ∈ cs, ∀ a ∈ c.addrs, own a = false) → Context.found own cs = false
  | [], _ => rfl
  | [c], h => by
    rw [Context.found, ← Bool.not_eq_true, Bool.or_eq_true, List.any_eq_true, List.any_eq_true]
    rintro (⟨a, ha, ho⟩ | ⟨a, ha, ho⟩)
    · simp [h c (by simp) a (mem_addrs_of_mem (List.mem_append_right _ ha))] at ho
    · simp [h c (by simp) a (mem_addrs_of_mem (List.mem_append_left _ ha))] at ho
  | c :: d :: cs, h => by
    rw [List.forall_mem_cons] at h
    rw [Context.found, Context.found_absent h.2, Bool.or_false, ← Bool.not_eq_true,
      List.any_eq_true]
    · rintro ⟨a, ha, ho⟩
      simp [h.1 a (mem_addrs_of_mem (List.mem_append_right _ ha))] at ho
    · simp

/-- **A task is cancelled, and nothing else, exactly when its PDUs are alone in their contexts.**
If a PDU with the tag of the task waits for its response in some context, or is in the `outqueue`
of the oldest one, then `iscsi_scsi_cancel_task` does what it should if and only if the PDUs with
the tag are alone in their contexts; otherwise it does what it should. -/
theorem iscsiScsiCancelTask_cancels_iff (t : TaskPtr) (hw : w.ChainOk) :
    CancelsTask t w ↔ (Context.found (w.own t) w.contexts = true → w.LoneTask t) := by
  obtain ⟨w', h, hspec⟩ := cancelTaskFrom_spec (w := w) rfl hw
    (fun _ _ a _ => Eq.refl (w.own t a)) fun _ _ a _ => Eq.refl (w.isCommandAt a)
  constructor
  · rintro ⟨r, w'', h', hzero, _⟩ hfound
    rw [hfound, if_pos rfl] at h
    obtain ⟨rfl, rfl⟩ := Prod.mk.inj (Except.ok.inj (h.symm.trans h'))
    exact lone_of_taskCancelled hw hspec (hzero rfl)
  · intro hlone
    refine ⟨_, w', h, fun hr => ?_, fun habs => ?_⟩
    · refine taskCancelled_of_lone hw (hlone ?_) hspec
      by_contra hnot
      rw [if_neg hnot] at hr
      cases hr
    · have habsent := cancelTaskFrom_absent (t := t) (w := w) rfl (fun c hc a ha => by
        obtain ⟨p, hp⟩ := hw.live hc ha
        simp [hp]) habs
      exact Prod.mk.inj (Except.ok.inj (h.symm.trans habsent))

end

/-! ## A write whose data is queued -/

/-- A command of task 0 in `outqueue`, with `n` DATA-OUTs behind it. -/
def queuedWrite (n : Nat) : World :=
  { iscsi := { outqueue := List.range (n + 1), cmdsn := 2 }
    pdus := fun a =>
      if a = 0 then
        some { outdata := iscsiPduScsiRequest :: List.replicate 47 0, itt := 7, cmdsn := 1
               callback := some .scsiResponseCb
               scsiCbdata := { callback := some (.user 0), task := some 0 } }
      else if a ≤ n then
        some { outdata := iscsiPduDataOut :: List.replicate 47 0, itt := 7, cmdsn := 1
               scsiCbdata := { task := some 0 } }
      else none
    tasks := fun _ => { itt := 7 } }

theorem queuedWrite_ok (n : Nat) : (queuedWrite n).ChainOk where
  each c hc := by
    obtain rfl : c = (queuedWrite n).iscsi := by simpa [World.contexts, queuedWrite] using hc
    refine ⟨by simpa [queuedWrite, World.seenFrom] using List.nodup_range, fun a ha => ?_,
      fun a ha => by simp [queuedWrite, World.seenFrom] at ha⟩
    have ha : a ≤ n := by simpa [queuedWrite, World.seenFrom, Nat.lt_succ_iff] using ha
    by_cases h0 : a = 0
    · exact ⟨_, if_pos h0, fun _ => rfl⟩
    · exact ⟨_, (if_neg h0).trans (if_pos ha), fun h => by cases h⟩
  disjoint := by simp [World.contexts, queuedWrite]

/-- A command without DATA-OUTs is cancelled. -/
theorem iscsiScsiCancelTask_cancels_one : CancelsTask 0 (queuedWrite 0) := by
  refine (iscsiScsiCancelTask_cancels_iff 0 (queuedWrite_ok 0)).2 fun _ => ⟨?_, ?_, ?_, ?_⟩
  · intro c hc
    obtain rfl : c = (queuedWrite 0).iscsi := by simpa [World.contexts, queuedWrite] using hc
    exact ⟨by decide, by decide, by decide, by simp [queuedWrite]⟩
  · simp [World.contexts, queuedWrite]
  · intro c hc l₁ a l₂ h _ _ b hb
    obtain rfl : c = (queuedWrite 0).iscsi := by simpa [World.contexts, queuedWrite] using hc
    have hlen := congrArg List.length h
    have hpos := List.length_pos_of_mem hb
    simp [queuedWrite] at hlen
    omega
  · refine ⟨0, ⟨⟨_, List.mem_cons_self, by decide⟩, by decide, by decide⟩, ?_⟩
    rintro b ⟨⟨c, hc, hb⟩, _⟩
    obtain rfl : c = (queuedWrite 0).iscsi := by simpa [World.contexts, queuedWrite] using hc
    simpa [Context.addrs, queuedWrite] using hb

/-- The DATA-OUT of a command that is cancelled is unlinked and never freed. -/
theorem iscsiScsiCancelTask_loses_dataOut :
    ¬∀ (t : TaskPtr) (w : World), w.ChainOk → CancelsTask t w := by
  intro h
  obtain ⟨r, w', hw', hzero, _⟩ := h 0 (queuedWrite 1) (queuedWrite_ok 1)
  have hrun : (iscsiScsiCancelTask (queuedWrite 1) 0).toOption.map (fun x =>
      (x.1, (x.2.pdus 1).isSome)) = some (0, true) := by decide
  rw [hw'] at hrun
  obtain ⟨hr, hlive⟩ := Prod.mk.inj (Option.some.inj hrun)
  have hfreed := ((hzero hr).freed _ List.mem_cons_self 1 (by decide) (by decide)).1
  rw [show w'.pdus 1 = none from hfreed] at hlive
  cases hlive

end Libiscsi
