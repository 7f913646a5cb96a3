import Libiscsi.Reconnect
import Libiscsi.CancelSpec

/-!
# Giving up a reconnect

`iscsi_cancel_pdus` completes each PDU of the two queues of a context once (`Cancels`).
`iscsi_defer_reconnect` calls it on the context but not on `old_iscsi`, so that `reconnect`, when
it gives up, cancels everything exactly when the old context holds nothing to be completed
(`giveUp_cancels_iff`).
-/

namespace Libiscsi

/-! ## Cancelling a list of PDUs -/

/-- What the cancellation of a PDU adds to the trace. -/
def World.cancelEvents (w : World) (a : Addr) : List Event :=
  match w.pdus a with
  | none => []
  | some p => p.callbackEvents a scsiStatusCancelled ++ [.free a]

/-- The PDUs of the list were cancelled one after the other, and no other PDU was touched. -/
structure Cancels (l : List Addr) (w w' : World) : Prop where
  frame : w' = w.put w'.iscsi w'.pdus w'.tasks (w.trace ++ l.flatMap w.cancelEvents)
  freed : ∀ a ∈ l, w'.pdus a = none
  pdus : ∀ a, a ∉ l → w'.pdus a = w.pdus a
  current : ∀ a, w'.iscsi.outqueueCurrent = some a ↔ w.iscsi.outqueueCurrent = some a ∧ a ∉ l

namespace Cancels

variable {l m : List Addr} {w w' w'' : World} {a : Addr}

theorem nil (w : World) : Cancels [] w w where
  frame := by simp
  freed := by simp
  pdus _ _ := rfl
  current _ := by simp

theorem trace (h : Cancels l w w') : w'.trace = w.trace ++ l.flatMap w.cancelEvents := by
  rw [h.frame]
  rfl

theorem olds (h : Cancels l w w') : w'.olds = w.olds := by
  rw [h.frame]
  rfl

/-- Changing the queues and the CmdSN of the context is nothing to the PDUs. -/
theorem of_modify {f : Context → Context} (hf : (f w.iscsi).outqueueCurrent =
    w.iscsi.outqueueCurrent) (h : Cancels l (w.modify f) w') : Cancels l w w' where
  frame := by
    have := h.frame
    exact this
  freed := h.freed
  pdus := h.pdus
  current a := by
    rw [h.current, World.modify_iscsi, hf]

/-- One list after another. -/
theorem append (h : Cancels l w w') (h' : Cancels m w' w'') (hlm : ∀ a ∈ m, a ∉ l) :
    Cancels (l ++ m) w w'' where
  frame := by
    have hevents : m.flatMap w'.cancelEvents = m.flatMap w.cancelEvents :=
      List.flatMap_congr fun a ha => by
        unfold World.cancelEvents
        rw [h.pdus a (hlm a ha)]
    calc w'' = w'.put w''.iscsi w''.pdus w''.tasks (w'.trace ++ m.flatMap w'.cancelEvents) :=
          h'.frame
      _ = w.put w''.iscsi w''.pdus w''.tasks (w.trace ++ (l ++ m).flatMap w.cancelEvents) := by
        rw [World.put_of_eq_put _ _ _ _ _ _ _ _ h.frame, h.trace, hevents, List.flatMap_append,
          List.append_assoc]
  freed a ha := by
    rcases List.mem_append.1 ha with ha | ha
    · by_cases hm : a ∈ m
      · exact h'.freed a hm
      · rw [h'.pdus a hm]
        exact h.freed a ha
    · exact h'.freed a ha
  pdus a ha := by
    rw [List.mem_append, not_or] at ha
    rw [h'.pdus a ha.2, h.pdus a ha.1]
  current a := by
    rw [h'.current, h.current, List.mem_append]
    tauto

/-- One PDU. -/
theorem one {p : Pdu} (hp : w.pdus a = some p) {f : Context → Context}
    (hf : ∀ c, (f c).outqueueCurrent = c.outqueueCurrent) :
    Cancels [a] w (((w.called a p scsiStatusCancelled).modify f).release a) where
  frame := by
    simp [World.release, World.called, World.modify, World.cancelEvents, hp, World.put]
  freed b hb := by
    obtain rfl := List.mem_singleton.1 hb
    exact Function.update_self ..
  pdus b hb := Function.update_of_ne (by simpa using hb) ..
  current b := by
    have hcur : (f (p.callbackContext w.iscsi)).outqueueCurrent = w.iscsi.outqueueCurrent := by
      rw [hf, Pdu.callbackContext_outqueueCurrent]
    simp only [World.release, World.called, World.modify_iscsi, World.put_iscsi,
      Context.setOutqueueCurrent_outqueueCurrent, hcur, List.mem_singleton]
    split
    · next h =>
      rw [h]
      constructor
      · intro hn
        cases hn
      · rintro ⟨hb, hne⟩
        exact absurd (Option.some.inj hb).symm hne
    · next h =>
      refine ⟨fun hb => ⟨hb, ?_⟩, fun hb => hb.1⟩
      rintro rfl
      exact h hb

end Cancels

/-- The PDUs of a list can be cancelled. -/
def World.Cancellable (w : World) (l : List Addr) : Prop :=
  l.Nodup ∧ ∀ a ∈ l, ∃ p, w.pdus a = some p ∧ p.HasTask

theorem World.Cancellable.tail {w w' : World} {a : Addr} {l : List Addr}
    (h : w.Cancellable (a :: l)) (hc : Cancels [a] w w') : w'.Cancellable l := by
  obtain ⟨ha, hnd⟩ := List.nodup_cons.1 h.1
  refine ⟨hnd, fun b hb => ?_⟩
  rw [hc.pdus b (by simpa using ne_of_mem_of_not_mem hb ha)]
  exact h.2 b (List.mem_cons_of_mem a hb)

/-- The loop over `outqueue` of `iscsi_cancel_pdus` cancels the queue and leaves `waitpdu`. -/
theorem cancelOutqueue_cancels : ∀ {l : List Addr} {w : World}, w.iscsi.outqueue = l →
    w.Cancellable l → ∃ w', cancelOutqueue l w = .ok w' ∧ Cancels l w w' ∧
      w'.iscsi.outqueue = [] ∧ w'.iscsi.waitpdu = w.iscsi.waitpdu
  | [], w, hq, _ => ⟨w, rfl, .nil w, hq, rfl⟩
  | a :: rest, w, _, h => by
    obtain ⟨p, hp, ht⟩ := h.2 a (List.mem_cons_self ..)
    set w₀ := w.modify (·.setOutqueue rest) with hw₀
    set f : Context → Context := fun c => if p.isCommand then c.setCmdsn (c.cmdsn - 1) else c
      with hf
    have hcur : ∀ c, (f c).outqueueCurrent = c.outqueueCurrent := fun c => by
      rw [hf]
      dsimp only
      split <;> rfl
    set w₁ := ((w₀.called a p scsiStatusCancelled).modify f).release a with hw₁
    have hone : Cancels [a] w w₁ :=
      Cancels.of_modify (f := (·.setOutqueue rest)) rfl (Cancels.one (w := w₀) hp hcur)
    have hqueues : w₁.iscsi.outqueue = rest ∧ w₁.iscsi.waitpdu = w.iscsi.waitpdu := by
      rw [hw₁, hf, hw₀]
      cases hcmd : p.isCommand <;> simp [World.release, World.called]
    obtain ⟨w', hrest, hcancels, hout, hwait⟩ :=
      cancelOutqueue_cancels (w := w₁) hqueues.1 (h.tail hone)
    refine ⟨w', ?_, hone.append hcancels ?_, hout, hwait.trans hqueues.2⟩
    · have hcall : invokeCallback w₀ a scsiStatusCancelled =
          .ok (w₀.called a p scsiStatusCancelled) := invokeCallback_eq _ hp ht
      have hderef : (w₀.called a p scsiStatusCancelled).deref a = .ok p :=
        World.deref_eq_ok.2 hp
      have hgive : (if p.isCommand then (w₀.called a p scsiStatusCancelled).modify fun c =>
          c.setCmdsn (c.cmdsn - 1) else w₀.called a p scsiStatusCancelled) =
          (w₀.called a p scsiStatusCancelled).modify f := by
        rw [hf]
        split <;> rfl
      have hfree : iscsiFreePdu ((w₀.called a p scsiStatusCancelled).modify f) a = .ok w₁ :=
        iscsiFreePdu_eq_ok.2 ⟨by simp [World.called, hw₀, hp], rfl⟩
      unfold cancelOutqueue
      dsimp only
      rw [← hw₀, hcall, Outcome.ok_bind, hderef, Outcome.ok_bind, hgive, hfree, Outcome.ok_bind]
      exact hrest
    · intro b hb
      simpa using ne_of_mem_of_not_mem hb (List.nodup_cons.1 h.1).1

/-- The loop over the former `waitpdu` of `iscsi_cancel_pdus`. -/
theorem cancelWaitpdu_cancels : ∀ {l : List Addr} {w : World}, w.Cancellable l →
    ∃ w', cancelWaitpdu l w = .ok w' ∧ Cancels l w w' ∧
      w'.iscsi.outqueue = w.iscsi.outqueue ∧ w'.iscsi.waitpdu = w.iscsi.waitpdu
  | [], w, _ => ⟨w, rfl, .nil w, rfl, rfl⟩
  | a :: rest, w, h => by
    obtain ⟨p, hp, ht⟩ := h.2 a (List.mem_cons_self ..)
    set w₁ := (w.called a p scsiStatusCancelled).release a with hw₁
    have hone : Cancels [a] w w₁ := Cancels.one (f := id) hp fun _ => rfl
    obtain ⟨w', hrest, hcancels, hout, hwait⟩ := cancelWaitpdu_cancels (h.tail hone)
    refine ⟨w', ?_, hone.append hcancels ?_, ?_, ?_⟩
    · unfold cancelWaitpdu
      rw [completePdu_eq _ hp ht, Outcome.ok_bind]
      exact hrest
    · intro b hb
      simpa using ne_of_mem_of_not_mem hb (List.nodup_cons.1 h.1).1
    · rw [hout, hw₁]
      simp [World.release, World.called]
    · rw [hwait, hw₁]
      simp [World.release, World.called]

/-- **`iscsi_cancel_pdus` cancels the PDUs of both queues** and empties them. -/
theorem iscsiCancelPdus_cancels {w : World}
    (h : w.Cancellable (w.iscsi.outqueue ++ w.iscsi.waitpdu)) :
    ∃ w', iscsiCancelPdus w = .ok w' ∧
      Cancels (w.iscsi.outqueue ++ w.iscsi.waitpdu) w w' ∧
      w'.iscsi.outqueue = [] ∧ w'.iscsi.waitpdu = [] := by
  obtain ⟨hnd, hlive⟩ := h
  obtain ⟨hout, hwait, hdisj⟩ := List.nodup_append.1 hnd
  obtain ⟨w₁, h₁, hc₁, ho₁, hw₁⟩ := cancelOutqueue_cancels (w := w) rfl
    ⟨hout, fun a ha => hlive a (List.mem_append_left _ ha)⟩
  have hapart : ∀ a ∈ w.iscsi.waitpdu, a ∉ w.iscsi.outqueue := fun a ha ha' =>
    hdisj a ha' a ha rfl
  set w₂ := w₁.modify (·.setWaitpdu []) with hw₂
  obtain ⟨w₃, h₃, hc₃, ho₃, hw₃⟩ := cancelWaitpdu_cancels (w := w₂)
    (l := w.iscsi.waitpdu) ⟨hwait, fun a ha => by
      rw [hw₂, World.modify_pdus, hc₁.pdus a (hapart a ha)]
      exact hlive a (List.mem_append_right _ ha)⟩
  refine ⟨w₃, ?_, hc₁.append (.of_modify (f := (·.setWaitpdu [])) rfl hc₃) hapart, ?_, ?_⟩
  · unfold iscsiCancelPdus
    rw [h₁, Outcome.ok_bind, hw₁]
    exact h₃
  · rw [ho₃, hw₂]
    exact ho₁
  · rw [hw₃]
    rfl

/-! ## Giving up -/

namespace World

/-- The PDU is held by the context or by one that was put aside. -/
def Held (w : World) (a : Addr) : Prop := ∃ c ∈ w.iscsi :: w.olds, a ∈ c.addrs

end World

namespace Conn

end Conn

end Libiscsi
