import Libiscsi.GiveUp
import Libiscsi.Replies

/-!
# The end of a context

`iscsi_destroy_context` (`lib/init.c`) disconnects, cancels what is queued, frees a PDU that is
being sent and that nothing waits for, and does the same with the contexts that reconnects put
aside. Every PDU of these contexts is freed once, after its callback was called once
(`destroyContext_complete`).
-/

namespace Libiscsi

/-! ## The context -/

/-- `iscsi_tcp_disconnect`. -/
def iscsiTcpDisconnect (c : Context) : Context :=
  if c.fd = -1 then c else { c with fd := -1, isConnected := false, isCorked := false }

/-- The PDU that is being sent is freed if it would be deleted when it is sent. -/
def freeCurrent (w : World) : Res World :=
  match w.iscsi.outqueueCurrent with
  | none => .ok w
  | some a => do
    let pdu ← w.deref a
    if pdu.hasFlag iscsiPduDeleteWhenSent then iscsiFreePdu w a else .ok w

/-- `iscsi_destroy_context`, for one context. -/
def destroyOne (w : World) : Res World := do
  let w ← iscsiCancelPdus (w.modify iscsiTcpDisconnect)
  let w ← freeCurrent w
  .ok (w.modify fun c => { c with incoming := none, connectData := 0 })

/-- `iscsi_destroy_context`, for the context and those that were put aside. -/
def iscsiDestroyContext : List Context → World → Res World
  | [], w => destroyOne w
  | old :: olds, w => do
    let w ← destroyOne w
    iscsiDestroyContext olds { w with iscsi := { old with fd := -1 }, olds }

/-! ## What a context owns -/

/-- The PDU that is being sent, if it is to be deleted afterwards. -/
def Context.unsent (c : Context) (pdus : Addr → Option Pdu) : List Addr :=
  c.outqueueCurrent.toList.filter fun a => (pdus a).any (·.hasFlag iscsiPduDeleteWhenSent)

/-- The PDUs of a context. -/
def Context.owned (c : Context) (pdus : Addr → Option Pdu) : List Addr :=
  c.outqueue ++ c.waitpdu ++ c.unsent pdus

/-- The PDUs of the context and of those that were put aside. -/
def World.owned (w : World) : List Addr := (w.iscsi :: w.olds).flatMap (·.owned w.pdus)

/-- The PDUs of a context are there, none at two places but that what is being sent may wait for a
reply, and one that is deleted when it is sent has no callback. -/
structure Context.Tidy (c : Context) (pdus : Addr → Option Pdu) : Prop where
  nodup : (c.owned pdus).Nodup
  live : ∀ a ∈ c.owned pdus, ∃ p, pdus a = some p ∧ p.HasTask
  current : ∀ a, c.outqueueCurrent = some a → a ∈ c.unsent pdus ∨ a ∈ c.waitpdu
  noCallback : ∀ a ∈ c.unsent pdus, ∀ p, pdus a = some p → p.callback = none

/-- The contexts are tidy and share no PDU. -/
structure World.Tidy (w : World) : Prop where
  contexts : ∀ c ∈ w.iscsi :: w.olds, c.Tidy w.pdus
  apart : (w.iscsi :: w.olds).Pairwise fun c d => ∀ a ∈ c.owned w.pdus, a ∉ d.owned w.pdus

/-- Of the PDUs these were completed, and no others. -/
structure World.Destroyed (w w' : World) (l : List Addr) (new : List Event) : Prop where
  trace : w'.trace = w.trace ++ new
  freed : ∀ a ∈ l, w'.pdus a = none
  pdus : ∀ a, a ∉ l → w'.pdus a = w.pdus a
  events : ∀ a ∈ l, ∀ p, w.pdus a = some p →
    new.filter (Event.isOf a) = p.call a (some scsiStatusCancelled) ++ [.free a]
  quiet : ∀ a, a ∉ l → new.filter (Event.isOf a) = []

section
variable {w w₁ w' : World} {l l' : List Addr} {new new' : List Event}

/-- One list after another. -/
theorem World.Destroyed.append (h : w.Destroyed w₁ l new) (h' : w₁.Destroyed w' l' new')
    (hapart : ∀ a ∈ l, a ∉ l') : w.Destroyed w' (l ++ l') (new ++ new') where
  trace := by rw [h'.trace, h.trace, List.append_assoc]
  freed a ha := by
    by_cases hl' : a ∈ l'
    · exact h'.freed a hl'
    · rw [h'.pdus a hl']
      exact h.freed a ((List.mem_append.1 ha).resolve_right hl')
  pdus a ha := by
    obtain ⟨hl, hl'⟩ := not_or.1 (mt List.mem_append.2 ha)
    rw [h'.pdus a hl', h.pdus a hl]
  events a ha p hp := by
    rw [List.filter_append]
    rcases List.mem_append.1 ha with hl | hl'
    · rw [h.events a hl p hp, h'.quiet a (hapart a hl), List.append_nil]
    · have hl : a ∉ l := fun hl => hapart a hl hl'
      rw [h.quiet a hl, h'.events a hl' p ((h.pdus a hl).trans hp), List.nil_append]
  quiet a ha := by
    obtain ⟨hl, hl'⟩ := not_or.1 (mt List.mem_append.2 ha)
    rw [List.filter_append, h.quiet a hl, h'.quiet a hl', List.nil_append]

/-- The events of a cancelled list, for one address. -/
theorem filter_cancelEvents (hlive : ∀ a ∈ l, ∃ p, w.pdus a = some p ∧ p.HasTask) (hnodup : l.Nodup)
    (a : Addr) : (∀ p, a ∈ l → w.pdus a = some p → (l.flatMap w.cancelEvents).filter
        (Event.isOf a) = p.call a (some scsiStatusCancelled) ++ [.free a]) ∧
      (a ∉ l → (l.flatMap w.cancelEvents).filter (Event.isOf a) = []) := by
  induction l with
  | nil => exact ⟨fun _ h => absurd h List.not_mem_nil, fun _ => rfl⟩
  | cons b l ih =>
    obtain ⟨hb, hnodup'⟩ := List.nodup_cons.1 hnodup
    obtain ⟨hin, hout⟩ := ih (fun c hc => hlive c (List.mem_cons_of_mem _ hc)) hnodup'
    obtain ⟨q, hq, -⟩ := hlive b List.mem_cons_self
    have hfirst : (w.cancelEvents b).filter (Event.isOf a) =
        if a = b then q.call b (some scsiStatusCancelled) ++ [.free b] else [] := by
      unfold World.cancelEvents
      rw [hq]
      exact @filter_completion b a q (some scsiStatusCancelled)
    rw [List.flatMap_cons, List.filter_append, hfirst]
    by_cases hab : a = b
    · subst hab
      rw [if_pos rfl, hout hb, List.append_nil]
      refine ⟨fun p _ hp => ?_, fun h => absurd List.mem_cons_self h⟩
      rw [Option.some.inj (hq.symm.trans hp)]
    · rw [if_neg hab, List.nil_append]
      refine ⟨fun p ha hp => hin p ((List.mem_cons.1 ha).resolve_left hab) hp, fun ha => ?_⟩
      exact hout (mt (List.mem_cons_of_mem b) ha)

/-- What is cancelled is destroyed. -/
theorem Cancels.destroyed (h : Cancels l w w') (hl : w.Cancellable l) :
    w.Destroyed w' l (l.flatMap w.cancelEvents) where
  trace := h.trace
  freed := h.freed
  pdus := h.pdus
  events a ha p hp := (filter_cancelEvents hl.2 hl.1 a).1 p ha hp
  quiet a ha := (filter_cancelEvents hl.2 hl.1 a).2 ha

/-! ## One context -/

theorem mem_unsent {c : Context} {pdus : Addr → Option Pdu} {a : Addr} :
    a ∈ c.unsent pdus ↔ c.outqueueCurrent = some a ∧
      ∃ p, pdus a = some p ∧ p.hasFlag iscsiPduDeleteWhenSent = true := by
  unfold Context.unsent
  rw [List.mem_filter, Option.mem_toList, Option.any_eq_true]

/-- The PDU being sent is freed, or it has been. -/
theorem freeCurrent_destroys
    (hcurrent : ∀ a, w.iscsi.outqueueCurrent = some a → a ∈ w.iscsi.unsent w.pdus)
    (hnone : ∀ a ∈ w.iscsi.unsent w.pdus, ∀ p, w.pdus a = some p → p.callback = none) :
    ∃ w', freeCurrent w = .ok w' ∧ w'.olds = w.olds ∧
      w.Destroyed w' (w.iscsi.unsent w.pdus) ((w.iscsi.unsent w.pdus).map Event.free) := by
  unfold freeCurrent
  cases hcur : w.iscsi.outqueueCurrent with
  | none =>
    have hunsent : w.iscsi.unsent w.pdus = [] := by
      unfold Context.unsent
      rw [hcur]
      rfl
    rw [hunsent]
    exact ⟨w, rfl, rfl, (List.append_nil _).symm, fun _ h => absurd h List.not_mem_nil,
      fun _ _ => rfl, fun _ h => absurd h List.not_mem_nil, fun _ _ => rfl⟩
  | some a =>
    obtain ⟨-, p, hp, hflag⟩ := mem_unsent.1 (hcurrent a hcur)
    have hunsent : w.iscsi.unsent w.pdus = [a] := by
      unfold Context.unsent
      rw [hcur]
      exact List.filter_cons_of_pos ((Option.any_eq_true ..).2 ⟨p, hp, hflag⟩)
    have hself : Event.isOf a (.free a) = true := by
      simp [Event.isOf, Event.isFreeOf]
    simp only [World.deref_eq_ok.2 hp, Outcome.ok_bind]
    rw [if_pos hflag, hunsent]
    refine ⟨w.release a, iscsiFreePdu_eq_ok.2 ⟨Option.isSome_iff_exists.2 ⟨p, hp⟩, rfl⟩, rfl, rfl,
      fun b hb => ?_, fun b hb => ?_, fun b hb q hq => ?_, fun b hb => ?_⟩
    · obtain rfl := List.mem_singleton.1 hb
      exact Function.update_self ..
    · exact Function.update_of_ne (mt List.mem_singleton.2 hb) ..
    · obtain rfl := List.mem_singleton.1 hb
      obtain rfl := Option.some.inj (hq.symm.trans hp)
      have hcall : q.call b (some scsiStatusCancelled) = [] := by
        unfold Pdu.call
        rw [hnone b (hcurrent b hcur) q hp]
      rw [hcall, List.nil_append]
      exact List.filter_cons_of_pos hself
    · refine List.filter_cons_of_neg ?_
      have hne : a ≠ b := fun h => hb (h ▸ List.mem_cons_self)
      simp [Event.isOf, Event.isFreeOf, Event.isCallbackOf, hne]

/-- A context that has nothing in common with what was destroyed is as tidy as it was. -/
theorem Context.Tidy.of_eq {c : Context} {pdus pdus' : Addr → Option Pdu} (h : c.Tidy pdus)
    (hsame : ∀ a ∈ c.owned pdus, pdus' a = pdus a) :
    c.owned pdus' = c.owned pdus ∧ c.Tidy pdus' := by
  have hcur : ∀ a, c.outqueueCurrent = some a → pdus' a = pdus a := fun a ha => by
    refine hsame a (List.mem_append.2 ?_)
    exact (h.current a ha).symm.imp (List.mem_append_right _) id
  have hunsent : c.unsent pdus' = c.unsent pdus := by
    unfold Context.unsent
    refine List.filter_congr fun a ha => ?_
    rw [hcur a (Option.mem_toList.1 ha)]
  have howned : c.owned pdus' = c.owned pdus := by
    unfold Context.owned
    rw [hunsent]
  refine ⟨howned, by rw [howned]; exact h.nodup, fun a ha => ?_, fun a ha => ?_,
    fun a ha p hp => ?_⟩
  · rw [howned] at ha
    rw [hsame a ha]
    exact h.live a ha
  · rw [hunsent]
    exact h.current a ha
  · rw [hunsent] at ha
    rw [hcur a (mem_unsent.1 ha).1] at hp
    exact h.noCallback a ha p hp

/-- **A context is destroyed with its PDUs.** -/
theorem destroyOne_destroys (h : w.iscsi.Tidy w.pdus) : ∃ w' new, destroyOne w = .ok w' ∧
    w'.olds = w.olds ∧ w.Destroyed w' (w.iscsi.owned w.pdus) new := by
  obtain ⟨hqueued, hunsent, hapart⟩ := List.nodup_append.1 h.nodup
  set w₀ := w.modify iscsiTcpDisconnect with hw₀
  have hcontext : w₀.iscsi.outqueue = w.iscsi.outqueue ∧ w₀.iscsi.waitpdu = w.iscsi.waitpdu ∧
      w₀.iscsi.outqueueCurrent = w.iscsi.outqueueCurrent := by
    rw [hw₀, World.modify_iscsi]
    unfold iscsiTcpDisconnect
    split <;> exact ⟨rfl, rfl, rfl⟩
  have hcan : w₀.Cancellable (w₀.iscsi.outqueue ++ w₀.iscsi.waitpdu) := by
    rw [hcontext.1, hcontext.2.1]
    exact ⟨hqueued, fun a ha => h.live a (List.mem_append_left _ ha)⟩
  obtain ⟨w₁, hcancel, hcancels, -, -⟩ := iscsiCancelPdus_cancels hcan
  rw [hcontext.1, hcontext.2.1] at hcan hcancels
  -- what is still being sent waits for no reply, so it is what will be deleted
  have hkept : ∀ a ∈ w.iscsi.unsent w.pdus, w₁.pdus a = w.pdus a := fun a ha =>
    hcancels.pdus a fun hq => hapart a hq a ha rfl
  have hsent : w₁.iscsi.unsent w₁.pdus = w.iscsi.unsent w.pdus ∧
      ∀ a, w₁.iscsi.outqueueCurrent = some a → a ∈ w₁.iscsi.unsent w₁.pdus := by
    have hmem : ∀ a, w₁.iscsi.outqueueCurrent = some a → a ∈ w.iscsi.unsent w.pdus := by
      intro a ha
      obtain ⟨hcur, hnot⟩ := (hcancels.current a).1 ha
      rw [hcontext.2.2] at hcur
      exact (h.current a hcur).resolve_right fun hw => hnot (List.mem_append_right _ hw)
    refine ⟨?_, ?_⟩
    · rcases hcur : w₁.iscsi.outqueueCurrent with _ | a
      · have hempty : w.iscsi.unsent w.pdus = [] := by
          refine List.eq_nil_iff_forall_not_mem.2 fun a ha => ?_
          have hstill := (hcancels.current a).2
            ⟨hcontext.2.2.trans (mem_unsent.1 ha).1, fun hq => hapart a hq a ha rfl⟩
          rw [hcur] at hstill
          cases hstill
        rw [hempty]
        unfold Context.unsent
        rw [hcur]
        rfl
      · have hcur' : w.iscsi.outqueueCurrent = some a :=
          hcontext.2.2.symm.trans ((hcancels.current a).1 hcur).1
        unfold Context.unsent
        rw [hcur, hcur']
        refine List.filter_congr fun b hb => ?_
        obtain rfl := List.mem_singleton.1 hb
        rw [hkept b (hmem b hcur)]
    · intro a ha
      refine mem_unsent.2 ⟨ha, ?_⟩
      rw [hkept a (hmem a ha)]
      exact (mem_unsent.1 (hmem a ha)).2
  have hnone : ∀ a ∈ w₁.iscsi.unsent w₁.pdus, ∀ p, w₁.pdus a = some p → p.callback = none := by
    intro a ha p hp
    rw [hsent.1] at ha
    exact h.noCallback a ha p ((hkept a ha).symm.trans hp)
  obtain ⟨w₂, hfree, holds, hdestroyed⟩ := freeCurrent_destroys hsent.2 hnone
  rw [hsent.1] at hdestroyed
  have hall := (hcancels.destroyed hcan).append hdestroyed fun a ha ha' => hapart a ha a ha' rfl
  refine ⟨w₂.modify fun c => { c with incoming := none, connectData := 0 }, _, ?_,
    holds.trans hcancels.olds, hall.trace, hall.freed, hall.pdus, hall.events, hall.quiet⟩
  unfold destroyOne
  rw [← hw₀, hcancel, Outcome.ok_bind, hfree]
  rfl

/-! ## The context and those that were put aside -/

/-- The contexts of a list are destroyed, one after another. -/
theorem iscsiDestroyContext_destroys : ∀ {olds : List Context} {w : World},
    (∀ c ∈ w.iscsi :: olds, c.Tidy w.pdus) →
    (w.iscsi :: olds).Pairwise (fun c d => ∀ a ∈ c.owned w.pdus, a ∉ d.owned w.pdus) →
    ∃ w' new, iscsiDestroyContext olds w = .ok w' ∧
      w.Destroyed w' ((w.iscsi :: olds).flatMap (·.owned w.pdus)) new
  | [], w, htidy, _ => by
    obtain ⟨w', new, hrun, _, hdestroyed⟩ := destroyOne_destroys (htidy _ List.mem_cons_self)
    refine ⟨w', new, hrun, ?_⟩
    rw [List.flatMap_cons, List.flatMap_nil, List.append_nil]
    exact hdestroyed
  | old :: olds, w, htidy, hapart => by
    obtain ⟨hfirst, hrest⟩ := List.pairwise_cons.1 hapart
    obtain ⟨w₁, new, hrun, _, hdestroyed⟩ := destroyOne_destroys (htidy _ List.mem_cons_self)
    have hothers : ∀ c ∈ old :: olds, c.owned w₁.pdus = c.owned w.pdus ∧ c.Tidy w₁.pdus := by
      intro c hc
      refine (htidy c (List.mem_cons_of_mem _ hc)).of_eq fun a ha => hdestroyed.pdus a fun ha' => ?_
      exact hfirst c hc a ha' ha
    set w₂ : World := { w₁ with iscsi := { old with fd := -1 }, olds } with hw₂
    obtain ⟨hnodup, hlive, hcurrent, hnone⟩ := (hothers old List.mem_cons_self).2
    have hclosed : w₂.iscsi.Tidy w₂.pdus := ⟨hnodup, hlive, hcurrent, hnone⟩
    have htidy₂ : ∀ c ∈ w₂.iscsi :: olds, c.Tidy w₂.pdus := by
      intro c hc
      rcases List.mem_cons.1 hc with rfl | hc
      · exact hclosed
      · exact (hothers c (List.mem_cons_of_mem _ hc)).2
    have hlist : (w₂.iscsi :: olds).map (·.owned w₂.pdus) =
        (old :: olds).map (·.owned w.pdus) := by
      refine (show _ = (old :: olds).map (·.owned w₁.pdus) from rfl).trans ?_
      exact List.map_congr_left fun c hc => (hothers c hc).1
    have hapart₂ : (w₂.iscsi :: olds).Pairwise
        (fun c d => ∀ a ∈ c.owned w₂.pdus, a ∉ d.owned w₂.pdus) := by
      have hmap : ((old :: olds).map (·.owned w.pdus)).Pairwise fun l m => ∀ a ∈ l, a ∉ m :=
        List.pairwise_map.2 hrest
      rw [← hlist] at hmap
      exact List.pairwise_map.1 hmap
    obtain ⟨w', new', hrun', hdestroyed'⟩ := iscsiDestroyContext_destroys htidy₂ hapart₂
    have howned : (w₂.iscsi :: olds).flatMap (·.owned w₂.pdus) =
        (old :: olds).flatMap (·.owned w.pdus) := by
      rw [List.flatMap_def, List.flatMap_def, hlist]
    rw [howned] at hdestroyed'
    refine ⟨w', new ++ new', ?_, ?_⟩
    · unfold iscsiDestroyContext
      rw [hrun, Outcome.ok_bind]
      exact hrun'
    · rw [List.flatMap_cons]
      refine hdestroyed.append ⟨hdestroyed'.trace, hdestroyed'.freed, hdestroyed'.pdus,
        hdestroyed'.events, hdestroyed'.quiet⟩ fun a ha ha' => ?_
      obtain ⟨c, hc, hac⟩ := List.mem_flatMap.1 ha'
      exact hfirst c hc a ha hac

end

/-- **A context is destroyed with everything it holds**: of the PDUs of the context and of those
that reconnects put aside, each has its callback called once, which says that it was cancelled, and
is freed once after that; nothing happens to any other PDU. -/
theorem destroyContext_complete {w : World} (h : w.Tidy) :
    ∃ w' new, iscsiDestroyContext w.olds w = .ok w' ∧ w'.trace = w.trace ++ new ∧
      (∀ a ∈ w.owned, w'.pdus a = none ∧ ∃ p, w.pdus a = some p ∧
        new.filter (Event.isOf a) = p.call a (some scsiStatusCancelled) ++ [.free a]) ∧
      ∀ a, a ∉ w.owned → w'.pdus a = w.pdus a ∧ new.filter (Event.isOf a) = [] := by
  obtain ⟨w', new, hrun, hdestroyed⟩ := iscsiDestroyContext_destroys h.contexts h.apart
  refine ⟨w', new, hrun, hdestroyed.trace, fun a ha => ⟨hdestroyed.freed a ha, ?_⟩,
    fun a ha => ⟨hdestroyed.pdus a ha, hdestroyed.quiet a ha⟩⟩
  obtain ⟨c, hc, hac⟩ := List.mem_flatMap.1 ha
  obtain ⟨p, hp, _⟩ := (h.contexts c hc).live a hac
  exact ⟨p, hp, hdestroyed.events a ha p hp⟩

/-- A context with a queued request, one that waits for a reply and a DATA-OUT that is being sent,
and another one, put aside, of which a request waits. -/
def leaving : World where
  iscsi := { fd := 3, outqueue := [0], waitpdu := [2], outqueueCurrent := some 1 }
  olds := [{ waitpdu := [3] }]
  pdus a := if a = 1 then some { flags := iscsiPduDeleteWhenSent }
    else some { callback := some .loginCb, privateData := a }

theorem leaving_tidy : leaving.Tidy where
  contexts c hc := by
    have hlive : ∀ a, ∃ p, leaving.pdus a = some p ∧ p.HasTask := by
      intro a
      unfold leaving
      by_cases ha : a = 1
      · exact ⟨_, if_pos ha, fun h => by cases h⟩
      · exact ⟨_, if_neg ha, fun h => by cases h⟩
    rcases List.mem_cons.1 hc with rfl | hc
    · refine ⟨by decide, fun a _ => hlive a, fun a ha => ?_, fun a ha p hp => ?_⟩
      · obtain rfl := Option.some.inj ha
        exact .inl (by decide)
      · obtain rfl := Option.some.inj (mem_unsent.1 ha).1
        obtain rfl := Option.some.inj hp
        rfl
    · obtain rfl := List.mem_singleton.1 hc
      refine ⟨by decide, fun a _ => hlive a, fun a ha => ?_, fun a ha => ?_⟩
      · cases ha
      · cases (mem_unsent.1 ha).1
  apart := by decide

/-- The four requests are gone, that of the context put aside after it was told. -/
theorem destroyContext_complete_four : ∃ w' new,
    iscsiDestroyContext leaving.olds leaving = .ok w' ∧ w'.trace = new ∧
      (∀ a ∈ [0, 1, 2, 3], w'.pdus a = none) ∧
      new.filter (Event.isOf 1) = [.free 1] ∧
      new.filter (Event.isOf 3) = [.callback 3 .loginCb scsiStatusCancelled 3, .free 3] := by
  obtain ⟨w', new, hrun, htrace, howned, _⟩ := destroyContext_complete leaving_tidy
  have hall : ∀ a ∈ [0, 1, 2, 3], a ∈ leaving.owned := by decide
  obtain ⟨_, p, hp, hcurrent⟩ := howned 1 (hall 1 (by decide))
  obtain ⟨_, q, hq, haside⟩ := howned 3 (hall 3 (by decide))
  obtain rfl := Option.some.inj hp
  obtain rfl := Option.some.inj hq
  exact ⟨w', new, hrun, htrace, fun a ha => (howned a (hall a ha)).1, hcurrent, haside⟩

end Libiscsi
