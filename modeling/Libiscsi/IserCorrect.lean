import Libiscsi.CancelSpec
import Libiscsi.Iser
import Libiscsi.Lib.Run
import Libiscsi.QueueSpec

/-!
# Where the PDUs of the iSER transport are

A PDU is in `waitpdu` before it is known whether it can be sent, and nothing takes it out again:
one that expects no reply stays there for good, and one that could not be sent is neither sent
again nor completed, or is in both queues (`queuePdu_keeps_sent`). In the runs in which all PDUs
expect a reply and are sent, each is in one queue once, and is sent at most once, within the window
(`iser_membership`).
-/

namespace Libiscsi.Iser

/-- What is to hold of the queues: a PDU that was queued and not freed is in one of them, once; a
PDU that expects no reply was freed when it was sent; one that could not be sent waits for another
try, or was completed once with an error; and PDUs are sent once and within the window. -/
structure QueueMembership (s : Iser) : Prop where
  once : ∀ a ∈ s.queued, (s.world.pdus a).isSome →
    (s.world.iscsi.outqueue ++ s.world.iscsi.waitpdu).count a = 1
  released : ∀ post ∈ s.posts, post.pdu.hasFlag iscsiPduDeleteWhenSent →
    s.world.pdus post.addr = none
  retried : ∀ a ∈ s.failed, a ∈ s.world.iscsi.outqueue ∧ a ∉ s.world.iscsi.waitpdu ∨
    ∃ cb data, (s.world.trace.filter fun e => match e with
      | .callback b _ _ _ => b == a
      | _ => false) = [.callback a cb scsiStatusError data]
  sentOnce : (s.posts.map IserPost.addr).Nodup
  window : ∀ post ∈ s.posts, post.pdu.immediate = false →
    iscsiSerial32Compare post.pdu.cmdsn post.maxcmdsn ≤ 0

/-! ## Runs -/

/-- What happens on the transport. What becomes of the PDUs that are sent is the environment's. -/
inductive IserAct where
  /-- The PDU was built at the address and is queued. -/
  | queue (a : Addr) (pdu : Pdu) (cmEvent : Int) (sends : List IserSend)
  | revive (sends : List IserSend)
  | complete (a : Addr) (status : Status)
  | maxcmdsn (maxcmdsn : UInt32)

/-- The environment decides what becomes of the next PDUs. -/
def expect (s : Iser) (sends : List IserSend) : Iser := { s with sends }

/-- The PDU was built. -/
def build (s : Iser) (a : Addr) (pdu : Pdu) : Iser := { s with world := s.world.setPdu a pdu }

/-- One step. -/
def IserStep : IserAct → Iser → Iser → Prop
  | .queue a pdu cmEvent sends, s, s' => a ∉ s.queued ∧
    ((s.build a pdu).expect sends).queuePdu a cmEvent = .ok s'
  | .revive sends, s, s' => ∃ r, (s.expect sends).reviveQueuedPdus = .ok (r, s')
  | .complete a status, s, s' => a ∈ s.world.iscsi.waitpdu ∧
    s.completeReply a status = .ok s'
  | .maxcmdsn maxcmdsn, s, s' => s' = s.moveMaxcmdsn maxcmdsn

/-- The CmdSN of the PDU is within the window. -/
def inWindow (w : World) (a : Addr) : Bool :=
  match w.pdus a with
  | none => true
  | some p => decide (iscsiSerial32Compare p.cmdsn w.iscsi.maxcmdsn ≤ 0)

/-- The PDUs `iscsi_iser_revive_queued_pdus` sends. -/
def revived (w : World) : List Addr := w.iscsi.outqueue.takeWhile (inWindow w)

/-- The PDU expects a reply. -/
def Replied (w : World) (a : Addr) : Prop :=
  ∀ p, w.pdus a = some p → p.hasFlag iscsiPduDeleteWhenSent = false

/-- The condition on a step: a PDU that is sent expects a reply, no sending fails, and no connection
event is in the way of a NOP-Out. -/
def IserGood : IserAct → Iser → Prop
  | .queue _ pdu cmEvent sends, s =>
    (byte pdu.outdata 0 = iscsiPduNopOut → cmEvent = 0) ∧
    (s.connected → s.world.iscsi.outqueue = [] →
      (iscsiSerial32Compare pdu.cmdsn s.world.iscsi.maxcmdsn ≤ 0 ∨ pdu.immediate) →
      pdu.hasFlag iscsiPduDeleteWhenSent = false ∧ ∀ o ∈ sends, o = .posted)
  | .revive sends, s => s.connected →
    (∀ a ∈ revived s.world, Replied s.world a) ∧ ∀ o ∈ sends, o = .posted
  | _, _ => True

/-! ## The invariant -/

/-- The PDUs that are queued, and those of a list that are on their way from one queue to the
other. -/
def held (s : Iser) (moving : List Addr) : List Addr :=
  s.world.iscsi.outqueue ++ s.world.iscsi.waitpdu ++ moving

/-- The invariant, with PDUs on their way. -/
structure Inv (moving : List Addr) (s : Iser) : Prop where
  nodup : (s.held moving).Nodup
  live : ∀ a ∈ s.held moving, (s.world.pdus a).isSome
  member : ∀ a ∈ s.queued, (s.world.pdus a).isSome → a ∈ s.held moving
  queued : ∀ a ∈ s.held moving, a ∈ s.queued
  sent : ∀ post ∈ s.posts, post.addr ∈ s.queued ∧ post.addr ∉ s.world.iscsi.outqueue ∧
    post.addr ∉ moving ∧ post.pdu.hasFlag iscsiPduDeleteWhenSent = false
  sentOnce : (s.posts.map IserPost.addr).Nodup
  window : ∀ post ∈ s.posts, post.pdu.immediate = false →
    iscsiSerial32Compare post.pdu.cmdsn post.maxcmdsn ≤ 0
  failed : s.failed = []

variable {s s' : Iser} {a : Addr}

/-- What the invariant says of the queues. -/
theorem Inv.membership (h : Inv [] s) : QueueMembership s where
  once a ha hp := by
    have hmem := h.member a ha hp
    have hnd := h.nodup
    simp only [held, List.append_nil] at hmem hnd
    exact List.count_eq_one_of_mem hnd hmem
  released post hpost hflag := by
    rw [(h.sent post hpost).2.2.2] at hflag
    cases hflag
  retried a ha := by
    rw [h.failed] at ha
    cases ha
  sentOnce := h.sentOnce
  window := h.window

/-- The PDU is put at the end of `waitpdu`. -/
def wait (s : Iser) (a : Addr) (q : Pdu) : Iser :=
  { s with world := (s.world.setPdu a q).modify (fun c => c.setWaitpdu (c.waitpdu ++ [a])) }

/-- The PDU on its way is put at the end of `waitpdu`. -/
theorem Inv.toWaitpdu {q : Pdu} (h : Inv [a] s) : Inv [] (s.wait a q) := by
  set s₁ := s.wait a q with hs₁
  have hheld : s₁.held [] = s.held [a] := by simp [hs₁, held, wait]
  have hother : ∀ b, b ≠ a → s₁.world.pdus b = s.world.pdus b := fun b hb =>
    Function.update_of_ne hb ..
  have hself : s₁.world.pdus a = some q := Function.update_self ..
  have ha : a ∈ s.held [a] := List.mem_append_right _ (List.mem_singleton_self a)
  constructor
  · rw [hheld]
    exact h.nodup
  · intro b hb
    rw [hheld] at hb
    by_cases hba : b = a
    · rw [hba, hself]
      rfl
    · rw [hother b hba]
      exact h.live b hb
  · intro b hb hsome
    rw [hheld]
    by_cases hba : b = a
    · subst hba
      exact ha
    · rw [hother b hba] at hsome
      exact h.member b hb hsome
  · intro b hb
    rw [hheld] at hb
    exact h.queued b hb
  · intro post hpost
    obtain ⟨h₁, h₂, h₃, h₄⟩ := h.sent post hpost
    exact ⟨h₁, h₂, List.not_mem_nil, h₄⟩
  · exact h.sentOnce
  · exact h.window
  · exact h.failed

/-- What sending a PDU leaves as it is. -/
structure SentFrame (a : Addr) (s s' : Iser) : Prop where
  connected : s'.connected = s.connected
  sends : s'.sends = s.sends ∨ s'.sends = s.sends.tail
  outqueue : s'.world.iscsi.outqueue = s.world.iscsi.outqueue
  maxcmdsn : s'.world.iscsi.maxcmdsn = s.world.iscsi.maxcmdsn
  pdus : ∀ b, b ≠ a → s'.world.pdus b = s.world.pdus b

/-- **Sending a PDU** that is on its way: it is in `waitpdu`, and was sent if there is a
connection. -/
theorem Inv.sendPdu {r : Int} (h : Inv [a] s)
    (hgood : s.connected → Replied s.world a ∧ ∀ o ∈ s.sends, o = .posted)
    (hwindow : ∀ p, s.world.pdus a = some p → p.immediate = false →
      iscsiSerial32Compare p.cmdsn s.world.iscsi.maxcmdsn ≤ 0)
    (hs : s.sendPdu a = .ok (r, s')) :
    r = 0 ∧ Inv [] s' ∧ SentFrame a s s' := by
  unfold Iser.sendPdu at hs
  obtain ⟨p, hp, hs⟩ := Outcome.bind_eq_ok.1 hs
  rw [World.deref_eq_ok] at hp
  dsimp only at hs
  set q := p.setExpstatsn (s.world.iscsi.statsn + 1) with hq
  have hinv : Inv [] (s.wait a q) := h.toWaitpdu
  have hothers : ∀ b, b ≠ a → (s.world.setPdu a q).pdus b = s.world.pdus b := fun b hb =>
    Function.update_of_ne hb ..
  split at hs
  · obtain ⟨rfl, rfl⟩ := Prod.mk.inj (Except.ok.inj hs)
    exact ⟨rfl, hinv, ⟨rfl, .inl rfl, rfl, rfl, hothers⟩⟩
  · next hconn =>
    obtain ⟨hreplied, hsends⟩ := hgood (by simpa using hconn)
    have hfirst : s.sends.headD .posted = .posted := by
      cases hl : s.sends with
      | nil => rfl
      | cons o l => exact hsends o (by rw [hl]; exact List.mem_cons_self ..)
    rw [if_pos hfirst] at hs
    obtain ⟨rfl, rfl⟩ := Prod.mk.inj (Except.ok.inj hs)
    have ha : a ∈ s.held [a] := List.mem_append_right _ (List.mem_singleton_self a)
    have hout : a ∉ s.world.iscsi.outqueue := fun hmem =>
      (List.nodup_append.1 h.nodup).2.2 a (List.mem_append_left _ hmem) a
        (List.mem_singleton_self a) rfl
    have himm : q.immediate = p.immediate := by
      simp [hq, Pdu.setExpstatsn, Pdu.immediate]
    refine ⟨rfl, ⟨hinv.nodup, hinv.live, hinv.member, hinv.queued, ?_, ?_, ?_, hinv.failed⟩,
      ⟨rfl, .inr rfl, rfl, rfl, hothers⟩⟩
    · intro post hpost
      rcases List.mem_append.1 hpost with hpost | hpost
      · exact hinv.sent post hpost
      · obtain rfl := List.mem_singleton.1 hpost
        exact ⟨h.queued a ha, hout, List.not_mem_nil, hreplied p hp⟩
    · rw [List.map_append, List.nodup_append]
      refine ⟨h.sentOnce, List.nodup_singleton _, ?_⟩
      intro b hb c hc
      obtain rfl := List.mem_singleton.1 hc
      obtain ⟨post, hpost, rfl⟩ := List.mem_map.1 hb
      exact fun heq => (h.sent post hpost).2.2.1 (List.mem_singleton.2 heq)
    · intro post hpost
      rcases List.mem_append.1 hpost with hpost | hpost
      · exact h.window post hpost
      · obtain rfl := List.mem_singleton.1 hpost
        intro hno
        exact hwindow p hp (himm ▸ hno)

/-- The head of `outqueue` is on its way. -/
theorem Inv.takeHead {l : List Addr} (h : Inv [] s) (hq : s.world.iscsi.outqueue = a :: l) :
    Inv [a] (s.modify (·.setOutqueue l)) := by
  have hperm : ((s.modify (·.setOutqueue l)).held [a]).Perm (s.held []) := by
    simp only [held, Iser.modify, World.modify_iscsi, Context.setOutqueue_outqueue,
      Context.setOutqueue_waitpdu, hq, List.append_nil]
    exact List.perm_append_comm
  constructor
  · exact hperm.nodup_iff.2 h.nodup
  · exact fun b hb => h.live b (hperm.mem_iff.1 hb)
  · exact fun b hb hsome => hperm.mem_iff.2 (h.member b hb hsome)
  · exact fun b hb => h.queued b (hperm.mem_iff.1 hb)
  · intro post hpost
    obtain ⟨h₁, h₂, _, h₄⟩ := h.sent post hpost
    rw [hq, List.mem_cons, not_or] at h₂
    exact ⟨h₁, h₂.2, by simpa using h₂.1, h₄⟩
  · exact h.sentOnce
  · exact h.window
  · exact h.failed

/-- `takeWhile` looks at the members of the list only. -/
theorem takeWhile_congr {α : Type*} {p q : α → Bool} {l : List α} (h : ∀ b ∈ l, p b = q b) :
    l.takeWhile p = l.takeWhile q := by
  induction l with
  | nil => rfl
  | cons b l ih =>
    rw [List.takeWhile_cons, List.takeWhile_cons, h b (List.mem_cons_self ..),
      ih fun c hc => h c (List.mem_cons_of_mem b hc)]

/-- What is left to be revived after the head was sent. -/
theorem revived_tail {l : List Addr} (hq : s.world.iscsi.outqueue = a :: l)
    (hwindow : inWindow s.world a) (hframe : SentFrame a (s.modify (·.setOutqueue l)) s')
    (ha : a ∉ l) : revived s.world = a :: revived s'.world := by
  have hsame : ∀ b ∈ l, inWindow s'.world b = inWindow s.world b := by
    intro b hb
    unfold inWindow
    rw [hframe.pdus b (fun heq => ha (heq ▸ hb)), hframe.maxcmdsn]
    rfl
  have hout : s'.world.iscsi.outqueue = l := hframe.outqueue
  unfold revived
  rw [hq, hout, List.takeWhile_cons_of_pos hwindow]
  rw [takeWhile_congr hsame]

/-- **`iscsi_iser_revive_queued_pdus` keeps the invariant.** -/
theorem Inv.reviveLoop : ∀ {fuel : Nat} {s : Iser} {r : Int}, Inv [] s →
    (s.connected → (∀ a ∈ revived s.world, Replied s.world a) ∧ ∀ o ∈ s.sends, o = .posted) →
    s.reviveLoop fuel = .ok (r, s') → Inv [] s' := by
  intro fuel
  induction fuel with
  | zero =>
    intro s r h _ hs
    unfold Iser.reviveLoop at hs
    split at hs
    · obtain ⟨rfl, rfl⟩ := Prod.mk.inj (Except.ok.inj hs)
      exact h
    · obtain ⟨p, _, hs⟩ := Outcome.bind_eq_ok.1 hs
      split at hs
      · obtain ⟨rfl, rfl⟩ := Prod.mk.inj (Except.ok.inj hs)
        exact h
      · cases hs
  | succ fuel ih =>
    intro s r h hgood hs
    unfold Iser.reviveLoop at hs
    split at hs
    · obtain ⟨rfl, rfl⟩ := Prod.mk.inj (Except.ok.inj hs)
      exact h
    · next a l hq =>
      obtain ⟨p, hp, hs⟩ := Outcome.bind_eq_ok.1 hs
      rw [World.deref_eq_ok] at hp
      split at hs
      · obtain ⟨rfl, rfl⟩ := Prod.mk.inj (Except.ok.inj hs)
        exact h
      · next hwindow =>
        have hin : inWindow s.world a = true := by
          unfold inWindow
          rw [hp]
          exact decide_eq_true (not_lt.1 hwindow)
        have hal : a ∉ l := by
          have hnd := h.nodup
          simp only [held, hq, List.append_nil, List.cons_append, List.nodup_cons] at hnd
          exact fun hmem => hnd.1 (List.mem_append_left _ hmem)
        have hhead : a ∈ revived s.world := by
          unfold revived
          rw [hq, List.takeWhile_cons_of_pos hin]
          exact List.mem_cons_self ..
        obtain ⟨outqueue, hremove, hs⟩ := Outcome.bind_eq_ok.1 hs
        obtain ⟨_, rfl⟩ := listRemove_eq_ok.1 hremove
        obtain ⟨⟨r', s₁⟩, hsend, hs⟩ := Outcome.bind_eq_ok.1 hs
        rw [hq, List.erase_cons_head] at hsend
        have hwindow' : ∀ p', s.world.pdus a = some p' → p'.immediate = false →
            iscsiSerial32Compare p'.cmdsn s.world.iscsi.maxcmdsn ≤ 0 := fun p' hp' _ => by
          obtain rfl := Option.some.inj (hp.symm.trans hp')
          exact not_lt.1 hwindow
        obtain ⟨rfl, h₁, hframe⟩ := (h.takeHead hq).sendPdu
          (fun hc => ⟨(hgood hc).1 a hhead, (hgood hc).2⟩) hwindow' hsend
        refine ih h₁ (fun hc => ?_) hs
        obtain ⟨hreplied, hsends⟩ := hgood (hframe.connected.symm.trans hc)
        refine ⟨fun b hb => ?_, fun o ho => ?_⟩
        · have hb' : b ∈ revived s.world := by
            rw [revived_tail hq hin hframe hal]
            exact List.mem_cons_of_mem _ hb
          have hbl : b ∈ l := by
            have hmem := List.takeWhile_subset _ hb
            rwa [hframe.outqueue] at hmem
          intro p' hp'
          rw [hframe.pdus b (fun heq => hal (heq ▸ hbl))] at hp'
          exact hreplied b hb' p' hp'
        · rcases hframe.sends with heq | heq
          · exact hsends o (heq ▸ ho)
          · exact hsends o (List.mem_of_mem_tail (heq ▸ ho))

/-- The PDU on its way is inserted into `outqueue`. -/
theorem Inv.enqueue {w' : World} (h : Inv [a] s) (hsent : ∀ post ∈ s.posts, post.addr ≠ a)
    (hw : Libiscsi.enqueue s.world a = .ok w') : Inv [] { s with world := w' } := by
  have ha : a ∈ s.held [a] := List.mem_append_right _ (List.mem_singleton_self a)
  have hout : a ∉ s.world.iscsi.outqueue := fun hmem =>
    (List.nodup_append.1 h.nodup).2.2 a (List.mem_append_left _ hmem) a
      (List.mem_singleton_self a) rfl
  obtain ⟨_, q, _, _, hw', _⟩ := enqueue_spec hout hw
  set stops := w'.stopsAt q with hstops
  have hqueue : w'.iscsi.outqueue = Numbering.insertBy stops a s.world.iscsi.outqueue := by
    rw [hw']
    rfl
  have hwait : w'.iscsi.waitpdu = s.world.iscsi.waitpdu := by
    rw [hw']
    rfl
  have hpdus : w'.pdus = Function.update s.world.pdus a (some q) := by
    rw [hw']
    rfl
  have hinsert := Numbering.perm_insertBy stops a s.world.iscsi.outqueue
  have hperm : (Iser.held { s with world := w' } []).Perm (s.held [a]) := by
    simp only [held, hqueue, hwait, List.append_nil]
    exact ((hinsert.append_right _).trans (List.perm_append_singleton ..).symm)
  constructor
  · exact hperm.nodup_iff.2 h.nodup
  · intro b hb
    show (w'.pdus b).isSome
    rw [hpdus]
    by_cases hba : b = a
    · rw [hba, Function.update_self]
      rfl
    · rw [Function.update_of_ne hba]
      exact h.live b (hperm.mem_iff.1 hb)
  · intro b hb hsome
    refine hperm.mem_iff.2 ?_
    by_cases hba : b = a
    · subst hba
      exact ha
    · refine h.member b hb ?_
      change (w'.pdus b).isSome at hsome
      rwa [hpdus, Function.update_of_ne hba] at hsome
  · exact fun b hb => h.queued b (hperm.mem_iff.1 hb)
  · intro post hpost
    obtain ⟨h₁, h₂, _, h₄⟩ := h.sent post hpost
    refine ⟨h₁, ?_, List.not_mem_nil, h₄⟩
    show post.addr ∉ w'.iscsi.outqueue
    rw [hqueue, hinsert.mem_iff, List.mem_cons, not_or]
    exact ⟨hsent post hpost, h₂⟩
  · exact h.sentOnce
  · exact h.window
  · exact h.failed

/-- The PDU was built and is to be queued. -/
def accept (s : Iser) (a : Addr) (p : Pdu) : Iser :=
  { s with world := s.world.setPdu a p, queued := s.queued ++ [a] }

/-- A new PDU is on its way. -/
theorem Inv.fresh {p : Pdu} (h : Inv [] s) (ha : a ∉ s.queued) :
    Inv [a] (s.accept a p) := by
  have hheld : ∀ b, b ∈ (s.accept a p).held [a] ↔ b ∈ s.held [] ∨ b = a := by
    intro b
    simp [held, accept, or_assoc]
  have hnot : a ∉ s.held [] := fun hmem => ha (h.queued a hmem)
  have hother : ∀ b, b ≠ a → (s.world.setPdu a p).pdus b = s.world.pdus b := fun b hb =>
    Function.update_of_ne hb ..
  constructor
  · show (s.world.iscsi.outqueue ++ s.world.iscsi.waitpdu ++ [a]).Nodup
    have hnd := h.nodup
    simp only [held, List.append_nil] at hnd hnot
    rw [List.nodup_append]
    refine ⟨hnd, List.nodup_singleton a, ?_⟩
    rintro b hb c hc rfl
    obtain rfl := List.mem_singleton.1 hc
    exact hnot hb
  · intro b hb
    show ((s.world.setPdu a p).pdus b).isSome
    by_cases hba : b = a
    · rw [hba]
      simp [World.setPdu]
    · rw [hother b hba]
      exact h.live b (((hheld b).1 hb).resolve_right hba)
  · intro b hb hsome
    refine (hheld b).2 ?_
    by_cases hba : b = a
    · exact .inr hba
    · change ((s.world.setPdu a p).pdus b).isSome at hsome
      rw [hother b hba] at hsome
      refine .inl (h.member b ?_ hsome)
      exact (List.mem_append.1 hb).resolve_right (fun hc => hba (List.mem_singleton.1 hc))
  · intro b hb
    rcases (hheld b).1 hb with hb | rfl
    · exact List.mem_append_left _ (h.queued b hb)
    · exact List.mem_append_right _ (List.mem_singleton_self b)
  · intro post hpost
    obtain ⟨h₁, h₂, _, h₄⟩ := h.sent post hpost
    refine ⟨List.mem_append_left _ h₁, h₂, ?_, h₄⟩
    exact fun hc => ha (List.mem_singleton.1 hc ▸ h₁)
  · exact h.sentOnce
  · exact h.window
  · exact h.failed

/-- What becomes of the next PDUs plays no part in the invariant. -/
theorem Inv.expect {moving : List Addr} (h : Inv moving s) (sends : List IserSend) :
    Inv moving (s.expect sends) :=
  ⟨h.nodup, h.live, h.member, h.queued, h.sent, h.sentOnce, h.window, h.failed⟩

/-- **`iscsi_iser_queue_pdu` keeps the invariant.** -/
theorem Inv.queuePdu {p : Pdu} {cmEvent : Int} {sends : List IserSend} (h : Inv [] s)
    (ha : a ∉ s.queued) (hgood : IserGood (.queue a p cmEvent sends) s)
    (hs : ((s.build a p).expect sends).queuePdu a cmEvent = .ok s') : Inv [] s' := by
  obtain ⟨hevent, hsent⟩ := hgood
  have hfresh : Inv [a] ((s.accept a p).expect sends) := (h.fresh ha).expect sends
  set s₁ := (s.accept a p).expect sends with hs₁
  have hself : s₁.world.pdus a = some p := Function.update_self ..
  unfold Iser.queuePdu at hs
  obtain ⟨p', hp', hs⟩ := Outcome.bind_eq_ok.1 hs
  rw [World.deref_eq_ok] at hp'
  obtain rfl := Option.some.inj (hself.symm.trans hp')
  rw [if_neg (fun hc => hc.2 (hevent hc.1))] at hs
  split at hs
  · obtain ⟨w, hw, hs⟩ := Outcome.bind_eq_ok.1 hs
    obtain rfl := Except.ok.inj hs
    obtain ⟨w₁, hw₁, hw⟩ := iscsiAddToOutqueue_cases hw
    obtain rfl : w = w₁ := hw.elim id (fun hc => (Except.ok.inj hc).symm)
    refine hfresh.enqueue ?_ hw₁
    rintro post hpost rfl
    exact ha (h.sent post hpost).1
  · next hopen =>
    obtain ⟨⟨r, s₂⟩, hsend, hs⟩ := Outcome.bind_eq_ok.1 hs
    obtain rfl := Except.ok.inj hs
    rw [not_or, not_not] at hopen
    refine (hfresh.sendPdu (fun hc => ?_) (fun q hq himm => ?_) hsend).2.1
    · have hnow : iscsiSerial32Compare p.cmdsn s.world.iscsi.maxcmdsn ≤ 0 ∨ p.immediate := by
        by_contra hno
        rw [not_or, not_le] at hno
        exact hopen.2 hno
      obtain ⟨hflag, hposted⟩ := hsent hc hopen.1 hnow
      refine ⟨fun q hq => ?_, hposted⟩
      obtain rfl := Option.some.inj (hself.symm.trans hq)
      exact hflag
    · obtain rfl := Option.some.inj (hself.symm.trans hq)
      by_contra hclosed
      exact hopen.2 ⟨not_le.1 hclosed, by simp [himm]⟩

/-- **A reply that completes a PDU keeps the invariant.** -/
theorem Inv.completeReply {status : Status} (h : Inv [] s) (ha : a ∈ s.world.iscsi.waitpdu)
    (hs : s.completeReply a status = .ok s') : Inv [] s' := by
  unfold Iser.completeReply at hs
  obtain ⟨waitpdu, hremove, hs⟩ := Outcome.bind_eq_ok.1 hs
  obtain ⟨_, rfl⟩ := listRemove_eq_ok.1 hremove
  obtain ⟨w, hcall, hs⟩ := Outcome.bind_eq_ok.1 hs
  obtain ⟨p, _, rfl⟩ := invokeCallback_called hcall
  obtain ⟨w', hfree, hs⟩ := Outcome.bind_eq_ok.1 hs
  obtain ⟨_, rfl⟩ := iscsiFreePdu_eq_ok.1 hfree
  obtain rfl := Except.ok.inj hs
  have hnd : (s.world.iscsi.outqueue ++ s.world.iscsi.waitpdu).Nodup := by
    simpa [held] using h.nodup
  have hafter : ∀ b, b ∈ s.world.iscsi.outqueue ++ s.world.iscsi.waitpdu.erase a ↔
      b ∈ s.held [] ∧ b ≠ a := by
    intro b
    have hout : a ∉ s.world.iscsi.outqueue := fun hmem =>
      (List.nodup_append.1 hnd).2.2 a hmem a ha rfl
    have herase := (List.nodup_append.1 hnd).2.1.mem_erase_iff (a := b) (b := a)
    simp only [held, List.append_nil, List.mem_append, herase]
    constructor
    · rintro (hb | ⟨hne, hb⟩)
      · exact ⟨.inl hb, fun heq => hout (heq ▸ hb)⟩
      · exact ⟨.inr hb, hne⟩
    · rintro ⟨hb | hb, hne⟩
      · exact .inl hb
      · exact .inr ⟨hne, hb⟩
  set w := (s.world.modify (·.setWaitpdu (s.world.iscsi.waitpdu.erase a))) with hw
  set s' : Iser := { s with world := (w.called a p status).release a } with hs'
  have hheld : s'.held [] = s.world.iscsi.outqueue ++ s.world.iscsi.waitpdu.erase a := by
    simp [hs', hw, held, World.called, World.release]
  have hpdus : s'.world.pdus = Function.update s.world.pdus a none := by
    simp [hs', hw, World.called, World.release]
  have hout : s'.world.iscsi.outqueue = s.world.iscsi.outqueue := by
    simp [hs', hw, World.called, World.release]
  constructor
  · rw [hheld]
    exact hnd.sublist ((List.Sublist.refl _).append List.erase_sublist)
  · intro b hb
    rw [hheld, hafter] at hb
    rw [hpdus, Function.update_of_ne hb.2]
    exact h.live b hb.1
  · intro b hb hsome
    rw [hpdus] at hsome
    rw [hheld, hafter]
    by_cases hba : b = a
    · subst hba
      rw [Function.update_self] at hsome
      cases hsome
    · rw [Function.update_of_ne hba] at hsome
      exact ⟨h.member b hb hsome, hba⟩
  · intro b hb
    rw [hheld, hafter] at hb
    exact h.queued b hb.1
  · intro post hpost
    rw [hout]
    exact h.sent post hpost
  · exact h.sentOnce
  · exact h.window
  · exact h.failed

/-- A reply that moves MaxCmdSN keeps the invariant. -/
theorem Inv.moveMaxcmdsn (h : Inv [] s) (maxcmdsn : UInt32) : Inv [] (s.moveMaxcmdsn maxcmdsn) := by
  unfold Iser.moveMaxcmdsn
  split
  · exact ⟨h.nodup, h.live, h.member, h.queued, h.sent, h.sentOnce, h.window, h.failed⟩
  · exact h

/-- **One step that meets the condition keeps the invariant.** -/
theorem Inv.step {act : IserAct} (h : Inv [] s) (hgood : IserGood act s)
    (hs : IserStep act s s') : Inv [] s' := by
  cases act with
  | queue a p cmEvent sends => exact h.queuePdu hs.1 hgood hs.2
  | revive sends =>
    obtain ⟨r, hs⟩ := hs
    exact (h.expect sends).reviveLoop hgood hs
  | complete a status => exact h.completeReply hs.1 hs.2
  | maxcmdsn maxcmdsn =>
    obtain rfl := hs
    exact h.moveMaxcmdsn maxcmdsn

/-- Nothing is queued yet. -/
structure Idle (s : Iser) : Prop where
  outqueue : s.world.iscsi.outqueue = []
  waitpdu : s.world.iscsi.waitpdu = []
  posts : s.posts = []
  failed : s.failed = []
  queued : s.queued = []

/-- The invariant holds before anything is queued. -/
theorem Idle.inv (h : Idle s) : Inv [] s := by
  have hheld : s.held [] = [] := by
    rw [held, h.outqueue, h.waitpdu]
    rfl
  constructor
  · rw [hheld]
    exact List.nodup_nil
  · rw [hheld]
    exact fun a ha => absurd ha List.not_mem_nil
  · rw [h.queued]
    exact fun a ha => absurd ha List.not_mem_nil
  · rw [hheld]
    exact fun a ha => absurd ha List.not_mem_nil
  · rw [h.posts]
    exact fun post hpost => absurd hpost List.not_mem_nil
  · rw [h.posts]
    exact List.nodup_nil
  · rw [h.posts]
    exact fun post hpost => absurd hpost List.not_mem_nil
  · exact h.failed

/-- **Every PDU is in one queue once**, in every state of a run in which what is sent expects a
reply and no sending fails: none is lost, and each is sent at most once and within the window. -/
theorem iser_membership {s s' : Iser} (h : Idle s) (hrun : GoodRun IserStep IserGood s s') :
    QueueMembership s' :=
  (hrun.invariant h.inv fun _ _ _ hinv hs => hinv.step hs.2 hs.1).membership

/-- A command that is queued while the window is open. -/
def openCommand : Pdu := { itt := 1, outdata := iscsiPduScsiRequest :: List.replicate 47 0 }

/-- `iser_membership` for a command that is sent at once. -/
theorem iser_membership_command :
    ∃ s' : Iser, s'.posts.map IserPost.addr = [0] ∧ QueueMembership s' := by
  have hstep : ∃ s', ((Iser.build {} 0 openCommand).expect []).queuePdu 0 0 = .ok s' ∧
      s'.posts.map IserPost.addr = [0] := ⟨_, rfl, rfl⟩
  obtain ⟨s', hs, hposts⟩ := hstep
  refine ⟨s', hposts, iser_membership (s := {}) ⟨rfl, rfl, rfl, rfl, rfl⟩ ?_⟩
  refine Run.single (a := .queue 0 openCommand 0 []) ⟨⟨List.not_mem_nil, hs⟩, ?_, ?_⟩
  · exact fun _ => rfl
  · exact fun _ _ _ => ⟨by decide, fun o ho => absurd ho List.not_mem_nil⟩

/-- The NOP-Out that answers a NOP-In of the target: it expects no reply. -/
def nopOutReply : Pdu :=
  { flags := iscsiPduDeleteWhenSent
    itt := 0xffffffff
    outdata := (iscsiPduNopOut ||| iscsiPduImmediate) :: List.replicate 47 0 }

/-- An answer to a NOP-In was sent, and stays in `waitpdu`, where no reply will find it. -/
theorem queuePdu_keeps_sent :
    ∃ s', Idle {} ∧ Run IserStep {} s' ∧ s'.posts.map IserPost.addr = [0] ∧
      s'.world.iscsi.waitpdu = [0] ∧ ¬QueueMembership s' := by
  have hstep : ∃ s', ((Iser.build {} 0 nopOutReply).expect []).queuePdu 0 0 = .ok s' ∧
      s'.posts.map IserPost.addr = [0] ∧ s'.world.iscsi.waitpdu = [0] ∧
      ∃ post ∈ s'.posts, post.pdu.hasFlag iscsiPduDeleteWhenSent ∧
        (s'.world.pdus post.addr).isSome :=
    ⟨_, rfl, rfl, rfl, _, List.mem_singleton_self _, by decide, rfl⟩
  obtain ⟨s', hs, hposts, hwait, post, hpost, hflag, hlive⟩ := hstep
  refine ⟨s', ⟨rfl, rfl, rfl, rfl, rfl⟩, ?_, hposts, hwait, ?_⟩
  · exact Run.single (a := .queue 0 nopOutReply 0 []) ⟨List.not_mem_nil, hs⟩
  · intro hmembership
    rw [hmembership.released post hpost hflag] at hlive
    cases hlive

end Libiscsi.Iser
