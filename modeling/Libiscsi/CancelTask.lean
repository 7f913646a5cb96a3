import Libiscsi.CmdsnCorrect
import Libiscsi.TimeoutCorrect

/-!
# What `iscsi_scsi_cancel_task` does

The function looks for the task tag in the `waitpdu` of a context, then in its `outqueue`, then in
the context that a reconnect has put aside. In each context it completes one PDU (`picks`): the
first with the tag in `waitpdu`, where it stops, or the first in `outqueue`, from which it unlinks
all that have the tag. `cancelTaskFrom_spec` is the whole function.
-/

namespace Libiscsi

/-- The contexts of a connection, the newest first. -/
def World.contexts (w : World) : List Context := w.iscsi :: w.olds

/-- The world seen from one of the contexts. -/
def World.seenFrom (w : World) (c : Context) : World := { w with iscsi := c }

/-- The queues of every context are well formed, and no PDU belongs to two contexts. -/
structure World.ChainOk (w : World) : Prop where
  each : ∀ c ∈ w.contexts, (w.seenFrom c).QueuesOk
  disjoint : w.contexts.Pairwise fun c d => ∀ a ∈ c.addrs, a ∉ d.addrs

/-- The PDU at an address carries the tag of the task. -/
def World.own (w : World) (t : TaskPtr) : Addr → Bool := w.selects (hasItt (w.tasks t).itt)

/-! ## The PDUs that are completed -/

namespace Context

variable (own : Addr → Bool)

/-- The PDUs that are completed in a context. -/
def picks (c : Context) : List Addr :=
  if c.waitpdu.any own then (c.waitpdu.filter own).take 1 else (c.outqueue.filter own).take 1

/-- The PDUs that are completed in a chain of contexts: the search ends at the first that waits
for its response. -/
def picksAll : List Context → List Addr
  | [] => []
  | c :: cs => c.picks own ++ if c.waitpdu.any own then [] else picksAll cs

/-- The search ends at a PDU that waits for its response, or finds one in the last `outqueue`. -/
def found : List Context → Bool
  | [] => false
  | [c] => c.waitpdu.any own || c.outqueue.any own
  | c :: cs => c.waitpdu.any own || found cs

/-- What happens to a context. -/
structure Picked (cmd : Addr → Bool) (c c' : Context) : Prop where
  outqueue : c'.outqueue =
    if c.waitpdu.any own then c.outqueue else c.outqueue.filter fun a => !own a
  waitpdu : c'.waitpdu = c.waitpdu.filter fun a => decide (a ∉ c.picks own)
  current : c'.outqueueCurrent = c.outqueueCurrent.filter fun a => decide (a ∉ c.picks own)
  cmdsn : c'.cmdsn = c.cmdsn -
    if c.waitpdu.any own then 0 else UInt32.ofNat ((c.picks own).countP cmd)

/-- What happens to a chain of contexts. -/
inductive PickedAll (cmd : Addr → Bool) : List Context → List Context → Prop
  | nil : PickedAll cmd [] []
  | stop {c c' cs} (h : c.waitpdu.any own = true) (hc : c.Picked own cmd c') :
    PickedAll cmd (c :: cs) (c' :: cs)
  | go {c c' cs cs'} (h : c.waitpdu.any own = false) (hc : c.Picked own cmd c')
    (hcs : PickedAll cmd cs cs') : PickedAll cmd (c :: cs) (c' :: cs')

variable {own}

/-- The PDUs that are completed in a context are its own. -/
theorem mem_of_mem_picks {c : Context} {a : Addr} (h : a ∈ c.picks own) :
    a ∈ c.outqueue ++ c.waitpdu ∧ own a = true := by
  unfold picks at h
  split at h
  · obtain ⟨hm, ho⟩ := List.mem_filter.1 (List.mem_of_mem_take h)
    exact ⟨List.mem_append_right _ hm, ho⟩
  · obtain ⟨hm, ho⟩ := List.mem_filter.1 (List.mem_of_mem_take h)
    exact ⟨List.mem_append_left _ hm, ho⟩

theorem mem_addrs_of_mem {c : Context} {a : Addr} (h : a ∈ c.outqueue ++ c.waitpdu) :
    a ∈ c.addrs :=
  List.mem_append_left _ h

/-- The PDUs that are completed are in the contexts. -/
theorem mem_of_mem_picksAll {a : Addr} : ∀ {cs : List Context}, a ∈ picksAll own cs →
    ∃ c ∈ cs, a ∈ c.outqueue ++ c.waitpdu ∧ own a = true
  | c :: cs, h => by
    rw [picksAll, List.mem_append] at h
    rcases h with h | h
    · exact ⟨c, List.mem_cons_self, mem_of_mem_picks h⟩
    · split at h
      · cases h
      · obtain ⟨d, hd, h⟩ := mem_of_mem_picksAll h
        exact ⟨d, List.mem_cons_of_mem _ hd, h⟩

end Context

/-! ## One context -/

/-- The completion of a PDU leaves the tag of every task. -/
theorem callbackTasks_itt (p : Pdu) (status : Status) (tasks : TaskPtr → ScsiTask) (t : TaskPtr) :
    (p.callbackTasks status tasks t).itt = (tasks t).itt := by
  obtain ⟨s, hs⟩ := p.callbackTasks_eq status tasks t
  rw [hs]

section
variable {w : World} {t : TaskPtr} {own cmd : Addr → Bool}

/-- The first PDU of a list with the tag. -/
theorem findItt_eq (itt : UInt32) : ∀ {l : List Addr}, (∀ a ∈ l, (w.pdus a).isSome) →
    findItt w itt l = .ok (l.find? (w.selects (hasItt itt)))
  | [], _ => rfl
  | a :: l, h => by
    obtain ⟨p, hp⟩ := Option.isSome_iff_exists.1 (h a List.mem_cons_self)
    have ih := findItt_eq itt fun b hb => h b (List.mem_cons_of_mem _ hb)
    have hsel : w.selects (hasItt itt) a = (p.itt == itt) := by simp [World.selects, hp, hasItt]
    rw [findItt, World.deref_eq_ok.2 hp, Outcome.ok_bind, List.find?_cons, hsel]
    by_cases hitt : p.itt = itt
    · rw [if_pos hitt, beq_iff_eq.2 hitt]
    · rw [if_neg hitt, beq_eq_false_iff_ne.2 hitt, ih]

/-- The loop over `outqueue` goes through. -/
theorem unlinkItt_ok (itt : UInt32) : ∀ {l : List Addr} (tmp : List Addr) {w : World},
    (∀ a ∈ l, (w.pdus a).isSome) → l.Sublist w.iscsi.outqueue → l.Nodup →
    ∃ r, unlinkItt itt l tmp w = .ok r
  | [], tmp, w, _, _, _ => ⟨_, rfl⟩
  | a :: l, tmp, w, hlive, hsub, hnd => by
    obtain ⟨p, hp⟩ := Option.isSome_iff_exists.1 (hlive a List.mem_cons_self)
    have hlive' : ∀ b ∈ l, (w.pdus b).isSome := fun b hb => hlive b (List.mem_cons_of_mem _ hb)
    obtain ⟨hal, hnd⟩ := List.nodup_cons.1 hnd
    rw [unlinkItt, World.deref_eq_ok.2 hp, Outcome.ok_bind]
    split
    · rw [listRemove_of_mem (hsub.subset List.mem_cons_self), Outcome.ok_bind]
      refine unlinkItt_ok itt _ hlive' ?_ hnd
      have h := (List.sublist_cons_self a l).trans hsub
      have := h.erase a
      rwa [List.erase_of_not_mem hal] at this
    · exact unlinkItt_ok itt _ hlive' ((List.sublist_cons_self a l).trans hsub) hnd

/-- The PDUs that were unlinked, of which the first is completed. -/
theorem cancelTmp_eq (tmp : List Addr) (hlive : ∀ a ∈ tmp, ∃ p, w.pdus a = some p ∧ p.HasTask) :
    ∃ w', cancelTmp w tmp = .ok (if tmp = [] then -1 else 0, w') := by
  cases tmp with
  | nil => exact ⟨w, rfl⟩
  | cons a rest =>
    obtain ⟨p, hp, ht⟩ := hlive a List.mem_cons_self
    have hd : (w.called a p scsiStatusCancelled).deref a = .ok p := World.deref_eq_ok.2 hp
    have hfree : ∀ f : Context → Context,
        iscsiFreePdu ((w.called a p scsiStatusCancelled).modify f) a =
          .ok (((w.called a p scsiStatusCancelled).modify f).release a) := fun f =>
      (iscsiFreePdu_eq_ok ..).2 ⟨by simp [World.called, hp], rfl⟩
    simp only [cancelTmp, invokeCallback_eq _ hp ht, Outcome.ok_bind, hd]
    cases p.isCommand with
    | true =>
      rw [if_pos rfl, hfree]
      exact ⟨_, rfl⟩
    | false =>
      have hfree := hfree id
      rw [show (w.called a p scsiStatusCancelled).modify id = w.called a p scsiStatusCancelled
        from rfl] at hfree
      rw [if_neg (by simp), hfree]
      exact ⟨_, rfl⟩

/-- Releasing a PDU that is being sent. -/
theorem release_current (o : Option Addr) (a : Addr) :
    (if o = some a then none else o) = o.filter fun b => decide (b ∉ [a]) := by
  rcases o with _ | b
  · rfl
  · by_cases hb : b = a
    · simp [hb, Option.filter]
    · simp [hb, Option.filter]

/-- A list without duplicates, and without one of its elements. -/
theorem erase_eq_filter_notMem {l : List Addr} {a : Addr} (h : l.Nodup) :
    l.erase a = l.filter fun b => decide (b ∉ [a]) := by
  rw [h.erase_eq_filter]
  exact List.filter_congr fun b _ => by simp [bne, Bool.beq_eq_decide_eq]

/-- What `iscsi_scsi_cancel_task` does to one context. -/
structure HereSpec (own cmd : Addr → Bool) (t : TaskPtr) (w w' : World) : Prop where
  iscsi : w.iscsi.Picked own cmd w'.iscsi
  olds : w'.olds = w.olds
  pdus : ∀ a, w'.pdus a = if a ∈ w.iscsi.picks own then none else w.pdus a
  itt : (w'.tasks t).itt = (w.tasks t).itt
  trace : w'.trace = w.trace ++
    (w.iscsi.picks own).flatMap (w.completionEvents scsiStatusCancelled)

/-- The completion of one PDU, in a world whose queues have been changed. -/
theorem HereSpec.complete {v : World} {a : Addr} {p : Pdu} (hpicks : w.iscsi.picks own = [a])
    (hp : w.pdus a = some p) (hpdus : v.pdus = w.pdus) (htasks : v.tasks = w.tasks)
    (holds : v.olds = w.olds) (htrace : v.trace = w.trace)
    (hcur : v.iscsi.outqueueCurrent = w.iscsi.outqueueCurrent)
    (hout : v.iscsi.outqueue =
      if w.iscsi.waitpdu.any own then w.iscsi.outqueue else w.iscsi.outqueue.filter (!own ·))
    (hwait : v.iscsi.waitpdu = w.iscsi.waitpdu.filter fun b => decide (b ∉ [a]))
    (hcmdsn : v.iscsi.cmdsn = w.iscsi.cmdsn -
      if w.iscsi.waitpdu.any own then 0 else UInt32.ofNat ([a].countP cmd)) :
    HereSpec own cmd t w ((v.called a p scsiStatusCancelled).release a) where
  iscsi :=
    { outqueue := by simpa [World.release, World.called] using hout
      waitpdu := by simpa [World.release, World.called, hpicks] using hwait
      current := by
        rw [hpicks, ← release_current, ← hcur]
        simp [World.release, World.called]
      cmdsn := by simpa [World.release, World.called, hpicks] using hcmdsn }
  olds := holds
  pdus b := by
    by_cases hb : b = a
    · simp [World.release, hpicks, hb]
    · simp [World.release, World.called, hpicks, hb, hpdus]
  itt := by
    rw [← htasks]
    exact callbackTasks_itt p _ v.tasks t
  trace := by
    simp [World.release, World.called, hpicks, World.completionEvents, hp, htrace]

/-- **`iscsi_scsi_cancel_task` in one context.** -/
theorem cancelTaskHere_spec (hw : w.QueuesOk)
    (hown : ∀ a ∈ w.iscsi.addrs, own a = w.own t a)
    (hcmd : ∀ a ∈ w.iscsi.addrs, cmd a = w.isCommandAt a) :
    ∃ w', cancelTaskHere w t = .ok (w.iscsi.waitpdu.any own,
        (if w.iscsi.picks own = [] then -1 else 0), w') ∧ HereSpec own cmd t w w' := by
  have hwaitOwn : ∀ a ∈ w.iscsi.waitpdu, own a = w.own t a := fun a ha =>
    hown a (Context.mem_addrs_of_mem (List.mem_append_right _ ha))
  have houtOwn : ∀ a ∈ w.iscsi.outqueue, own a = w.own t a := fun a ha =>
    hown a (Context.mem_addrs_of_mem (List.mem_append_left _ ha))
  have hlive : ∀ a ∈ w.iscsi.outqueue ++ w.iscsi.waitpdu, (w.pdus a).isSome := fun a ha => by
    obtain ⟨p, hp, _⟩ := hw.live a ha
    simp [hp]
  have hndOut := (List.nodup_append.1 hw.nodup).1
  have hndWait := (List.nodup_append.1 hw.nodup).2.1
  have hfind : findItt w (w.tasks t).itt w.iscsi.waitpdu = .ok (w.iscsi.waitpdu.find? own) := by
    rw [findItt_eq _ fun a ha => hlive a (List.mem_append_right _ ha)]
    exact congrArg _ (List.find?_congr fun a ha => (hwaitOwn a ha).symm)
  have htake : ∀ a, w.iscsi.waitpdu.find? own = some a →
      (w.iscsi.waitpdu.filter own).take 1 = [a] := fun a ha => by
    rw [← List.head?_filter] at ha
    cases h : w.iscsi.waitpdu.filter own with
    | nil => rw [h] at ha; cases ha
    | cons b l =>
      rw [h] at ha
      obtain rfl := Option.some.inj ha
      rfl
  unfold cancelTaskHere
  simp only [hfind, Outcome.ok_bind]
  cases hf : w.iscsi.waitpdu.find? own with
  | some a =>
    have ha := List.mem_of_find?_eq_some hf
    have hany : w.iscsi.waitpdu.any own = true :=
      List.any_eq_true.2 ⟨a, ha, List.find?_some hf⟩
    have hpicks : w.iscsi.picks own = [a] := by rw [Context.picks, if_pos hany, htake a hf]
    obtain ⟨p, hp, ht⟩ := hw.live a (List.mem_append_right _ ha)
    refine ⟨((w.modify (·.setWaitpdu (w.iscsi.waitpdu.erase a))).called a p
      scsiStatusCancelled).release a, ?_, HereSpec.complete hpicks hp rfl rfl rfl rfl rfl ?_ ?_ ?_⟩
    · simp only [listRemove_of_mem ha, Outcome.ok_bind, hany, hpicks,
        completePdu_eq (w := w.modify (·.setWaitpdu (w.iscsi.waitpdu.erase a))) (p := p) _ hp ht]
      rfl
    · rw [if_pos hany]
      rfl
    · exact erase_eq_filter_notMem hndWait
    · rw [if_pos hany]
      simp
  | none =>
    have hany : w.iscsi.waitpdu.any own = false := by
      simpa using List.find?_eq_none.1 hf
    have hpicks : w.iscsi.picks own = (w.iscsi.outqueue.filter own).take 1 := by
      rw [Context.picks, hany, if_neg (by simp)]
    obtain ⟨⟨tmp, w₁⟩, hunlink⟩ := unlinkItt_ok (w.tasks t).itt []
      (fun a ha => hlive a (List.mem_append_left _ ha)) (List.Sublist.refl _) hndOut
    obtain ⟨htmp, hw₁⟩ := unlinkItt_eq (i := []) rfl hndOut hunlink
    have hfilter : w.iscsi.outqueue.filter (w.selects (hasItt (w.tasks t).itt)) =
        w.iscsi.outqueue.filter own := List.filter_congr fun a ha => (houtOwn a ha).symm
    have hfilter' : (w.iscsi.outqueue.filter fun a => !w.selects (hasItt (w.tasks t).itt) a) =
        w.iscsi.outqueue.filter fun a => !own a :=
      List.filter_congr fun a ha => by rw [houtOwn a ha]; rfl
    rw [List.nil_append, hfilter] at htmp
    rw [List.nil_append, hfilter'] at hw₁
    have hpicksNil : w.iscsi.picks own = [] ↔ tmp = [] := by
      rw [hpicks, htmp]
      cases w.iscsi.outqueue.filter own <;> simp
    have htmpLive : ∀ a ∈ tmp, ∃ p, w.pdus a = some p ∧ p.HasTask := fun a ha => by
      rw [htmp] at ha
      exact hw.live a (List.mem_append_left _ (List.mem_filter.1 ha).1)
    obtain ⟨w₂, hcancel⟩ := cancelTmp_eq (w := w₁) tmp (by rw [hw₁]; exact htmpLive)
    refine ⟨w₂, ?_, ?_⟩
    · simp only [hunlink, Outcome.ok_bind, hcancel, hany, hpicksNil]
    rcases cancelTmp_cases hcancel with ⟨hnil, rfl⟩ | ⟨b, rest, p, hb, hp, rfl⟩
    · have hnone := hpicksNil.2 hnil
      rw [hw₁]
      refine ⟨⟨?_, ?_, ?_, ?_⟩, rfl, fun a => ?_, rfl, ?_⟩
      · rw [hany]
        rfl
      · rw [hnone]
        simp
      · rw [hnone]
        cases h : w.iscsi.outqueueCurrent <;> simp [h, Option.filter]
      · rw [hany, hnone]
        simp
      · rw [hnone]
        simp
      · rw [hnone]
        simp
    · have hone : w.iscsi.picks own = [b] := by
        rw [hpicks, ← htmp, hb]
        rfl
      have hbOut : b ∈ w.iscsi.outqueue := by
        have : b ∈ w.iscsi.outqueue.filter own := by rw [← htmp, hb]; simp
        exact (List.mem_filter.1 this).1
      rw [hw₁] at hp ⊢
      have hcmdb : cmd b = p.isCommand := by
        rw [hcmd b (Context.mem_addrs_of_mem (List.mem_append_left _ hbOut)), World.isCommandAt,
          show w.pdus b = some p from hp]
      refine HereSpec.complete hone hp rfl rfl rfl rfl rfl ?_ ?_ ?_
      · rw [hany]
        rfl
      · refine (List.filter_eq_self.2 fun a ha => ?_).symm
        have hne : a ≠ b := fun h =>
          (List.nodup_append.1 hw.nodup).2.2 b hbOut a ha h.symm
        simpa using hne
      · rw [hany, List.countP_singleton, hcmdb]
        cases p.isCommand <;> rfl

/-! ## The chain of contexts -/

/-- A PDU is completed where one is found. -/
theorem Context.picks_eq_nil {c : Context} :
    c.picks own = [] ↔ (c.waitpdu.any own || c.outqueue.any own) = false := by
  unfold Context.picks
  have htake : ∀ l : List Addr, (l.filter own).take 1 = [] ↔ l.any own = false := fun l => by
    rw [← Bool.not_eq_true, List.any_eq_true]
    simp [List.filter_eq_nil_iff]
  cases h : c.waitpdu.any own with
  | true =>
    have := (htake c.waitpdu).not.2 (by simp [h])
    simp [this]
  | false => simp [htake]

/-- The rest of the chain after a context without the PDUs of another. -/
theorem World.ChainOk.tail {old : Context} {olds : List Context} {w₁ : World} (hw : w.ChainOk)
    (holds : w.olds = old :: olds)
    (hpdus : ∀ c ∈ w.olds, ∀ a ∈ c.addrs, w₁.pdus a = w.pdus a) :
    World.ChainOk { w₁ with iscsi := old, olds } where
  each c hc := by
    have hc' : c ∈ w.olds := by rw [holds]; exact hc
    have hq := hw.each c (List.mem_cons_of_mem _ hc')
    refine ⟨hq.nodup, fun a ha => ?_, fun a ha => ?_⟩
    · obtain ⟨p, hp, ht⟩ := hq.live a ha
      exact ⟨p, (hpdus c hc' a (Context.mem_addrs_of_mem ha)).trans hp, ht⟩
    · obtain ⟨hout, hlive⟩ := hq.current a ha
      have hmem : a ∈ c.addrs := List.mem_append_right _ (Option.mem_toList.2 ha)
      refine ⟨hout, ?_⟩
      change (w₁.pdus a).isSome
      rw [hpdus c hc' a hmem]
      exact hlive
  disjoint := by
    have := (List.pairwise_cons.1 hw.disjoint).2
    rwa [holds] at this

/-- What a chain of contexts becomes, and what is completed. -/
structure ChainSpec (own cmd : Addr → Bool) (w w' : World) : Prop where
  contexts : Context.PickedAll own cmd w.contexts w'.contexts
  pdus : ∀ a, w'.pdus a = if a ∈ Context.picksAll own w.contexts then none else w.pdus a
  trace : w'.trace = w.trace ++
    (Context.picksAll own w.contexts).flatMap (w.completionEvents scsiStatusCancelled)

/-- The search ended in the first context. -/
theorem HereSpec.chain {w' : World} (h : HereSpec own cmd t w w')
    (hstop : w.iscsi.waitpdu.any own = true ∨ w.olds = []) : ChainSpec own cmd w w' := by
  have hpicks : Context.picksAll own w.contexts = w.iscsi.picks own := by
    rw [World.contexts, Context.picksAll]
    rcases hstop with hany | hnil
    · rw [if_pos hany, List.append_nil]
    · rw [hnil, Context.picksAll, ite_self, List.append_nil]
  refine ⟨?_, ?_, ?_⟩
  · rw [World.contexts, World.contexts, h.olds]
    cases hany : w.iscsi.waitpdu.any own with
    | true => exact .stop hany h.iscsi
    | false =>
      rw [hstop.resolve_left (by simp [hany])]
      exact .go hany h.iscsi .nil
  · rw [hpicks]
    exact h.pdus
  · rw [hpicks]
    exact h.trace

/-- **`iscsi_scsi_cancel_task`.** -/
theorem cancelTaskFrom_spec : ∀ {olds : List Context} {w : World}, w.olds = olds → w.ChainOk →
    (∀ c ∈ w.contexts, ∀ a ∈ c.addrs, own a = w.own t a) →
    (∀ c ∈ w.contexts, ∀ a ∈ c.addrs, cmd a = w.isCommandAt a) →
    ∃ w', cancelTaskFrom olds w t = .ok (if Context.found own w.contexts then 0 else -1, w') ∧
      ChainSpec own cmd w w'
  | [], w, holds, hw, hown, hcmd => by
    obtain ⟨w', hhere, hspec⟩ := cancelTaskHere_spec (w := w) (hw.each w.iscsi List.mem_cons_self)
      (hown w.iscsi List.mem_cons_self) (hcmd w.iscsi List.mem_cons_self)
    refine ⟨w', ?_, hspec.chain (.inr holds)⟩
    simp only [cancelTaskFrom, hhere, Outcome.ok_bind, World.contexts, holds, Context.found]
    simp only [Context.picks_eq_nil]
    cases (w.iscsi.waitpdu.any own || w.iscsi.outqueue.any own) <;> rfl
  | old :: olds, w, holds, hw, hown, hcmd => by
    obtain ⟨w₁, hhere, hspec⟩ := cancelTaskHere_spec (w := w) (hw.each w.iscsi List.mem_cons_self)
      (hown w.iscsi List.mem_cons_self) (hcmd w.iscsi List.mem_cons_self)
    have hfound : Context.found own w.contexts =
        (w.iscsi.waitpdu.any own || Context.found own (old :: olds)) := by
      rw [World.contexts, holds, Context.found]
      simp
    cases hany : w.iscsi.waitpdu.any own with
    | true =>
      refine ⟨w₁, ?_, hspec.chain (.inl hany)⟩
      have hsome : w.iscsi.picks own ≠ [] := by
        rw [Ne, Context.picks_eq_nil, hany]
        simp
      simp only [cancelTaskFrom, hhere, Outcome.ok_bind, hany, if_pos, hfound, Bool.true_or,
        if_neg hsome]
    | false =>
      -- the PDUs of the older contexts are as they were
      have hdisj : ∀ c ∈ w.olds, ∀ a ∈ c.addrs, a ∉ w.iscsi.picks own := fun c hc a ha hp =>
        (List.pairwise_cons.1 hw.disjoint).1 c hc a
          (Context.mem_addrs_of_mem (Context.mem_of_mem_picks hp).1) ha
      have hpdus : ∀ c ∈ w.olds, ∀ a ∈ c.addrs, w₁.pdus a = w.pdus a := fun c hc a ha => by
        rw [hspec.pdus, if_neg (hdisj c hc a ha)]
      set v : World := { w₁ with iscsi := old, olds }
      have hvmem : ∀ c ∈ v.contexts, c ∈ w.olds := fun c hc => by rw [holds]; exact hc
      have hsel : ∀ c ∈ w.olds, ∀ a ∈ c.addrs, v.own t a = w.own t a ∧
          v.isCommandAt a = w.isCommandAt a := fun c hc a ha => by
        have hp : v.pdus a = w.pdus a := hpdus c hc a ha
        have hi : (v.tasks t).itt = (w.tasks t).itt := hspec.itt
        simp only [World.own, World.selects, World.isCommandAt, hp, hi, hasItt]
        exact ⟨trivial, trivial⟩
      obtain ⟨w₂, hrec, hchain⟩ := cancelTaskFrom_spec (w := v) (show v.olds = olds from rfl)
        (hw.tail holds hpdus)
        (fun c hc a ha => by
          rw [(hsel c (hvmem c hc) a ha).1]
          exact hown c (List.mem_cons_of_mem _ (hvmem c hc)) a ha)
        (fun c hc a ha => by
          rw [(hsel c (hvmem c hc) a ha).2]
          exact hcmd c (List.mem_cons_of_mem _ (hvmem c hc)) a ha)
      have hvc : v.contexts = w.olds := by rw [holds]; rfl
      have hpicks : Context.picksAll own w.contexts =
          w.iscsi.picks own ++ Context.picksAll own v.contexts := by
        rw [World.contexts, Context.picksAll, hany, if_neg (by simp), hvc]
      refine ⟨{ w₂ with iscsi := w₁.iscsi, olds := w₂.iscsi :: w₂.olds }, ?_, ?_, ?_, ?_⟩
      · have hfound' : Context.found own w.contexts = Context.found own v.contexts := by
          rw [hfound, hany, hvc, holds]
          rfl
        simp only [cancelTaskFrom, hhere, Outcome.ok_bind, hany, Bool.false_eq_true, if_false,
          hspec.olds, holds, hfound']
        rw [hrec]
        rfl
      · have := hchain.contexts
        rw [hvc] at this
        exact .go hany hspec.iscsi this
      · intro a
        change w₂.pdus a = _
        rw [hchain.pdus, hpicks]
        change (if _ then none else w₁.pdus a) = _
        rw [hspec.pdus]
        simp only [List.mem_append]
        by_cases h₁ : a ∈ Context.picksAll own v.contexts <;>
          by_cases h₂ : a ∈ w.iscsi.picks own <;> simp [h₁, h₂]
      · change w₂.trace = _
        rw [hchain.trace, hpicks, List.flatMap_append, ← List.append_assoc]
        change w₁.trace ++ _ = _
        rw [hspec.trace]
        congr 1
        refine List.flatMap_congr fun a ha => ?_
        obtain ⟨c, hc, hm, _⟩ := Context.mem_of_mem_picksAll ha
        have hp : v.pdus a = w.pdus a :=
          hpdus c (hvmem c hc) a (Context.mem_addrs_of_mem hm)
        simp only [World.completionEvents, hp]

end

end Libiscsi
