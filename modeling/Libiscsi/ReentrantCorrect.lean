import Libiscsi.Reentrant

/-!
# When a submission uses a freed PDU

A submission uses a freed PDU exactly when a nested call of `service` frees a PDU that it uses
after that call (`submission_safe_iff`). The loop of `iscsi_send_data_out` is by induction on its
turns: up to the first nested call that frees the command, the heap stays consistent.
-/

namespace Libiscsi

/-! ## The heap stays consistent -/

section
variable {w w' : World} {a cmd : Addr} {p : Pdu}

/-- A change that adds no live PDU but at new addresses, and completes none. -/
theorem World.Consistent.of (h : w.Consistent)
    (hqueued : ∀ a ∈ w'.iscsi.outqueue, (w'.pdus a).isSome) (hbrk : w.brk ≤ w'.brk)
    (hlive : ∀ a, (w'.pdus a).isSome → (w.pdus a).isSome ∨ w.brk ≤ a ∧ a < w'.brk)
    (hcompleted : ∀ a, w'.Completed a → w.Completed a) : w'.Consistent := by
  refine ⟨hqueued, fun a ha => ?_, fun a ha => ?_⟩
  · rcases hlive a ha with ha | ⟨_, ha⟩
    · exact Nat.lt_of_lt_of_le (h.below a ha) hbrk
    · exact ha
  · obtain ⟨hlt, hnone⟩ := h.completed a (hcompleted a ha)
    refine ⟨Nat.lt_of_lt_of_le hlt hbrk, ?_⟩
    by_contra hne
    rcases hlive a (Option.isSome_iff_ne_none.2 hne) with hsome | ⟨hle, _⟩
    · rw [hnone] at hsome
      cases hsome
    · exact absurd hlt (Nat.not_lt.2 hle)

/-- A change that leaves the queue, the PDUs and the trace alone. -/
theorem World.Consistent.congr (h : w.Consistent) (hq : w'.iscsi.outqueue = w.iscsi.outqueue)
    (hp : w'.pdus = w.pdus) (hb : w'.brk = w.brk) (ht : w'.trace = w.trace) : w'.Consistent := by
  refine h.of (fun a ha => ?_) (le_of_eq hb.symm) (fun a ha => ?_) fun a ha => ?_
  · rw [hp]
    exact h.queued a (hq ▸ ha)
  · exact .inl (hp ▸ ha)
  · unfold World.Completed at *
    rwa [ht] at ha

theorem World.Consistent.setPdu (h : w.Consistent) (ha : (w.pdus a).isSome) :
    (w.setPdu a p).Consistent := by
  refine h.of (fun b hb => ?_) (le_refl _) (fun b hb => .inl ?_) fun b hb => hb
  · rw [World.setPdu_pdus]
    by_cases hba : b = a
    · rw [hba, Function.update_self]
      rfl
    · rw [Function.update_of_ne hba]
      exact h.queued b hb
  · rw [World.setPdu_pdus] at hb
    by_cases hba : b = a
    · rwa [hba]
    · rwa [Function.update_of_ne hba] at hb

/-- A PDU is allocated: it is at a new address. -/
theorem World.Consistent.allocated (h : w.Consistent) : (w.allocated p).Consistent := by
  have hpdus : (w.allocated p).pdus = Function.update w.pdus w.brk (some p) := rfl
  refine h.of (fun b hb => ?_) (Nat.le_succ _) (fun b hb => ?_) fun b hb => hb
  · rw [hpdus, Function.update_of_ne (Nat.ne_of_lt (h.below b (h.queued b hb)))]
    exact h.queued b hb
  · rw [hpdus] at hb
    by_cases hba : b = w.brk
    · exact .inr ⟨le_of_eq hba.symm, hba ▸ Nat.lt_succ_self _⟩
    · rw [Function.update_of_ne hba] at hb
      exact .inl hb

/-- A PDU that is not queued is freed. -/
theorem World.Consistent.release (h : w.Consistent) (ha : a ∉ w.iscsi.outqueue) :
    (w.release a).Consistent := by
  refine h.of (fun b hb => ?_) (le_refl _) (fun b hb => .inl ?_) fun b hb => ?_
  · have hb : b ∈ w.iscsi.outqueue := hb
    simp only [World.release, World.put_pdus,
      Function.update_of_ne (ne_of_mem_of_not_mem hb ha)]
    exact h.queued b hb
  · simp only [World.release, World.put_pdus] at hb
    by_cases hba : b = a
    · rw [hba, Function.update_self] at hb
      cases hb
    · rwa [Function.update_of_ne hba] at hb
  · obtain ⟨cb, status, privateData, hb⟩ := hb
    refine ⟨cb, status, privateData, ?_⟩
    simpa [World.release] using hb

/-- The next address is that of no PDU. -/
theorem World.Consistent.brk_notMem (h : w.Consistent) : w.brk ∉ w.iscsi.outqueue := fun hm =>
  Nat.lt_irrefl _ (h.below _ (h.queued _ hm))

/-- An allocation that fails leaves everything as it was. -/
theorem World.Consistent.allocate_none {opcode responseOpcode : UInt8} {itt flags : UInt32}
    (h : w.Consistent) (hal : iscsiAllocatePdu w opcode responseOpcode itt flags = (none, w')) :
    w'.Consistent ∧ ∀ b, (w.pdus b).isSome → w'.pdus b = w.pdus b := by
  obtain ⟨allocs, rfl | rfl⟩ := iscsiAllocatePdu_none hal
  · exact ⟨h.congr rfl rfl rfl rfl, fun _ _ => rfl⟩
  · have hc : ({ w with allocs } : World).Consistent := h.congr rfl rfl rfl rfl
    refine ⟨World.Consistent.release ?_ h.brk_notMem, fun b hb => ?_⟩
    · refine hc.of (fun b hb => ?_) (Nat.le_succ _) (fun b hb => ?_) fun b hb => hb
      · have hlt := Nat.ne_of_lt (h.below b (h.queued b hb))
        simp only [World.newPdu, Function.update_of_ne hlt]
        exact h.queued b hb
      · by_cases hba : b = w.brk
        · exact .inr ⟨le_of_eq hba.symm, hba ▸ Nat.lt_succ_self _⟩
        · simp only [World.newPdu, Function.update_of_ne hba] at hb
          exact .inl hb
    · have hlt := Nat.ne_of_lt (h.below b hb)
      simp [World.release, World.newPdu, Function.update_of_ne hlt]

/-! ## Queueing -/

/-- The loop that looks for a CmdSN returns on a queue of live PDUs. -/
theorem firstCmdsn_ok : ∀ {l : List Addr}, (∀ b ∈ l, (w.pdus b).isSome) →
    ∃ r, firstCmdsn w l = .ok r
  | [], _ => ⟨none, rfl⟩
  | b :: l, h => by
    obtain ⟨current, hb⟩ := Option.isSome_iff_exists.1 (h b (by simp))
    rw [firstCmdsn, World.deref_eq_ok.2 hb, Outcome.ok_bind]
    split
    · exact ⟨_, rfl⟩
    · exact firstCmdsn_ok fun c hc => h c (List.mem_cons_of_mem b hc)

/-- A live PDU can be queued. -/
theorem World.Consistent.enqueue_ok (h : w.Consistent) (ha : (w.pdus a).isSome) :
    ∃ w', enqueue w a = .ok w' := by
  obtain ⟨p, hp⟩ := Option.isSome_iff_exists.1 ha
  set p₁ : Pdu := { p with scsiTimeout := w.timeoutOf } with hp₁
  have hlive : ∀ b ∈ w.iscsi.outqueue, ((w.setPdu a p₁).pdus b).isSome := fun b hb =>
    (h.setPdu ha).queued b hb
  -- the PDU after its CmdSN was set
  obtain ⟨w₁, hw₁, hq₁, hlive₁, q, hq⟩ : ∃ w₁, immediateCmdsn (w.setPdu a p₁) a p₁ = .ok w₁ ∧
      w₁.iscsi = w.iscsi ∧ (∀ b ∈ w.iscsi.outqueue, (w₁.pdus b).isSome) ∧
      ∃ q, w₁.pdus a = some q := by
    have hself : (w.setPdu a p₁).pdus a = some p₁ := Function.update_self ..
    unfold immediateCmdsn
    split
    · obtain ⟨r, hr⟩ := firstCmdsn_ok hlive
      rw [World.setPdu_iscsi, hr, Outcome.ok_bind]
      cases r with
      | none => exact ⟨_, rfl, rfl, hlive, p₁, hself⟩
      | some cmdsn =>
        have hset : ∀ b, (w.setPdu a p₁).pdus b ≠ none →
            (((w.setPdu a p₁).setPdu a (p₁.setCmdsn cmdsn)).pdus b).isSome := fun b hb => by
          by_cases hba : b = a
          · rw [hba, World.setPdu_pdus, Function.update_self]
            rfl
          · rw [World.setPdu_pdus, Function.update_of_ne hba]
            exact Option.isSome_iff_ne_none.2 hb
        simp only [iscsiPduSetCmdsn, World.deref_eq_ok.2 hself, Outcome.ok_bind]
        cases p₁.scsiCbdata.task with
        | none =>
          exact ⟨_, rfl, rfl, fun b hb => hset b (Option.isSome_iff_ne_none.1 (hlive b hb)), _,
            Function.update_self ..⟩
        | some t =>
          exact ⟨_, rfl, rfl, fun b hb => hset b (Option.isSome_iff_ne_none.1 (hlive b hb)), _,
            Function.update_self ..⟩
    · exact ⟨_, rfl, rfl, hlive, p₁, hself⟩
  have hins : insertPdu w₁ a q w.iscsi.outqueue =
      .ok (Numbering.insertBy (w₁.stopsAt q) a w.iscsi.outqueue) := insertPdu_ok hlive₁
  unfold enqueue
  rw [World.deref_eq_ok.2 hp, Outcome.ok_bind]
  simp only [← hp₁, hw₁, Outcome.ok_bind, World.deref_eq_ok.2 hq, hq₁, hins]
  exact ⟨_, rfl⟩

/-- What queueing a PDU does before `service` is called. -/
structure Enqueued (w w' : World) (a : Addr) : Prop where
  consistent : w'.Consistent
  brk : w'.brk = w.brk
  live : ∀ b, (w'.pdus b).isSome ↔ (w.pdus b).isSome
  iscsi : ∃ l, w'.iscsi = w.iscsi.setOutqueue l
  tasks : TasksRenumbered w.tasks w'.tasks
  self : (w'.pdus a).isSome

/-- The world after the call of `service`, which is made if the PDU is the head of `outqueue`. -/
def afterQueue (nested : World → World) (a : Addr) (w : World) : World :=
  if w.iscsi.outqueue.head? = some a then nested w else w

theorem afterQueue_of_head {nested : World → World} (h : w.iscsi.outqueue.head? = some a) :
    afterQueue nested a w = nested w := if_pos h

/-- A live PDU is queued, and then `service` is called. -/
theorem World.Consistent.queue (nested : World → World) (h : w.Consistent)
    (ha : (w.pdus a).isSome) (hout : a ∉ w.iscsi.outqueue) :
    ∃ w', Enqueued w w' a ∧ iscsiQueuePdu .ok w a = .ok w' ∧
      iscsiQueuePdu (nestedService nested) w a = .ok (afterQueue nested a w') := by
  obtain ⟨w', henq⟩ := h.enqueue_ok ha
  obtain ⟨p, q, hp, hcases, hframe, htasks⟩ := enqueue_spec hout henq
  have hpdus : w'.pdus = Function.update w.pdus a (some q) := by
    rw [hframe]
    rfl
  have hbrk : w'.brk = w.brk := by
    rw [hframe]
    rfl
  have hlive : ∀ b, (w'.pdus b).isSome ↔ (w.pdus b).isSome := fun b => by
    rw [hpdus]
    by_cases hba : b = a
    · rw [hba, Function.update_self, hp]
      exact iff_of_true rfl rfl
    · rw [Function.update_of_ne hba]
  have hqueue : w'.iscsi.outqueue = Numbering.insertBy (w'.stopsAt q) a w.iscsi.outqueue :=
    congrArg (·.iscsi.outqueue) hframe
  have htrace : w'.trace = w.trace ++ [.queued a q] := congrArg (·.trace) hframe
  refine ⟨w', ⟨?_, hbrk, hlive, ⟨_, congrArg (·.iscsi) hframe⟩, htasks, (hlive a).2 ha⟩, ?_, ?_⟩
  · refine h.of (fun b hb => (hlive b).2 ?_) (le_of_eq hbrk.symm)
      (fun b hb => .inl ((hlive b).1 hb)) fun b hb => ?_
    · rw [hqueue, (Numbering.perm_insertBy ..).mem_iff, List.mem_cons] at hb
      rcases hb with rfl | hb
      · exact ha
      · exact h.queued b hb
    · obtain ⟨cb, status, privateData, hb⟩ := hb
      rw [htrace] at hb
      exact ⟨cb, status, privateData, by simpa using hb⟩
  · unfold iscsiQueuePdu iscsiAddToOutqueue
    rw [henq, Outcome.ok_bind, ite_self]
  · unfold iscsiQueuePdu iscsiAddToOutqueue
    rw [henq, Outcome.ok_bind]
    unfold afterQueue nestedService
    split <;> rfl

theorem Nests.afterQueue {nested : World → World} (hn : Nests nested) (h : w.Consistent) :
    (afterQueue nested a w).Consistent := by
  unfold Libiscsi.afterQueue
  split
  · exact hn.consistent w h
  · exact h

end

/-! ## The loop of `iscsi_send_data_out` -/

section
variable {nested : World → World} {w w' : World} {a cmd : Addr} {ttt offset len seg : UInt32}
  {last : Bool}

/-- The error exit uses the command while it is live. -/
theorem dataOutError_noUse (hcmd : (w.pdus cmd).isSome) :
    dataOutError w cmd ≠ .error .useAfterFree := by
  have hremove : ∀ (l : List Addr) (b : Addr), listRemove l b ≠ .error .useAfterFree := by
    intro l b h
    cases l <;> cases h
  intro h
  unfold dataOutError at h
  rcases Outcome.bind_eq_error.1 h with h | ⟨outqueue, _, h⟩
  · exact hremove _ _ h
  rcases Outcome.bind_eq_error.1 h with h | ⟨waitpdu, _, h⟩
  · exact hremove _ _ h
  obtain ⟨p, hp⟩ := Option.isSome_iff_exists.1 hcmd
  set w₁ := w.modify fun c => (c.setOutqueue outqueue).setWaitpdu waitpdu
  have hp₁ : w₁.pdus cmd = some p := hp
  rcases Outcome.bind_eq_error.1 h with h | ⟨w₂, hcall, h⟩
  · unfold invokeCallback at h
    rw [World.deref_eq_ok.2 hp₁, Outcome.ok_bind] at h
    split at h
    · cases h
    · unfold runCallback iscsiScsiResponseCb at h
      simp only at h
      split at h
      · split at h
        · cases h
        · split at h <;> cases h
      · cases h
      · cases h
  · obtain ⟨_, _, rfl⟩ := invokeCallback_called hcall
    rcases Outcome.bind_eq_error.1 h with h | ⟨w₃, _, h⟩
    · unfold iscsiFreePdu at h
      rw [show World.deref (w₁.called cmd _ scsiStatusError) cmd = .ok p from
        World.deref_eq_ok.2 hp₁] at h
      cases h
    · cases h

/-- One turn: the DATA-OUT is not allocated, or it is queued and `service` is called. -/
theorem sendOneDataOut_turn (nested : World → World) (ttt offset seg : UInt32) (last : Bool)
    (h : w.Consistent)
    (hcmd : (w.pdus cmd).isSome) :
    (∃ w', (∀ service, sendOneDataOut service w cmd ttt offset seg last = .ok (false, w')) ∧
        (w'.pdus cmd).isSome) ∨
      ∃ w', sendOneDataOut .ok w cmd ttt offset seg last = .ok (true, w') ∧
        sendOneDataOut (nestedService nested) w cmd ttt offset seg last =
          .ok (true, afterQueue nested w.brk w') ∧
        w'.Consistent ∧ (w'.pdus cmd).isSome := by
  obtain ⟨p, hp⟩ := Option.isSome_iff_exists.1 hcmd
  rcases hal : iscsiAllocatePdu w iscsiPduDataOut iscsiPduNoPdu p.itt
    (iscsiPduDropOnReconnect ||| iscsiPduDeleteWhenSent) with ⟨_ | a, w₁⟩
  · refine .inl ⟨w₁, fun service => ?_, ?_⟩
    · unfold sendOneDataOut
      simp only [World.deref_eq_ok.2 hp, Outcome.ok_bind, hal]
    · rw [(h.allocate_none hal).2 cmd hcmd]
      exact hcmd
  · obtain ⟨rfl, rfl⟩ := iscsiAllocatePdu_some hal
    set fresh := w.iscsi.freshPdu iscsiPduDataOut iscsiPduNoPdu p.itt
      (iscsiPduDropOnReconnect ||| iscsiPduDeleteWhenSent)
    set w₂ := ((w.allocated fresh).setPdu w.brk (fresh.asDataOut p ttt offset seg last)).setPdu cmd
      { p with datasn := p.datasn + 1 } with hw₂
    have hne : cmd ≠ w.brk := Nat.ne_of_lt (h.below cmd hcmd)
    have hcmd₁ : ((w.allocated fresh).pdus cmd).isSome := by
      rw [show (w.allocated fresh).pdus = Function.update w.pdus w.brk (some fresh) from rfl,
        Function.update_of_ne hne]
      exact hcmd
    have hc₂ : w₂.Consistent := by
      refine (h.allocated.setPdu (by rw [World.allocated_pdus_self]; rfl)).setPdu ?_
      rw [World.setPdu_pdus, Function.update_of_ne hne]
      exact hcmd₁
    have hself : (w₂.pdus w.brk).isSome := by
      rw [hw₂, World.setPdu_pdus, Function.update_of_ne hne.symm, World.setPdu_pdus,
        Function.update_self]
      rfl
    obtain ⟨w', hq, hid, hnested⟩ := hc₂.queue nested hself h.brk_notMem
    refine .inr ⟨w', ?_, ?_, hq.consistent, (hq.live cmd).2 ?_⟩
    · unfold sendOneDataOut
      simp only [World.deref_eq_ok.2 hp, Outcome.ok_bind, hal,
        World.deref_eq_ok.2 (World.allocated_pdus_self ..), ← hw₂, hid]
    · unfold sendOneDataOut
      simp only [World.deref_eq_ok.2 hp, Outcome.ok_bind, hal,
        World.deref_eq_ok.2 (World.allocated_pdus_self ..), ← hw₂, hnested]
    · rw [hw₂, World.setPdu_pdus, Function.update_self]
      rfl

/-- A turn on a freed command. -/
theorem sendOneDataOut_freed {service : World → Res World} (h : w.pdus cmd = none) :
    sendOneDataOut service w cmd ttt offset seg last = .error .useAfterFree := by
  unfold sendOneDataOut
  rw [show w.deref cmd = .error .useAfterFree by rw [World.deref, h]]
  rfl

/-- A turn that queued a DATA-OUT had a live command. -/
theorem live_of_sendOneDataOut {service : World → Res World} {r : Bool}
    (h : sendOneDataOut service w cmd ttt offset seg last = .ok (r, w')) :
    (w.pdus cmd).isSome := by
  by_contra hnone
  rw [Option.not_isSome_iff_eq_none] at hnone
  rw [sendOneDataOut_freed hnone] at h
  cases h

/-- What is left after a turn is nothing exactly if the turn was the last one. -/
theorem left_pos_iff {m : UInt32} (h : seg = min len m) : len - seg > 0 ↔ seg < len := by
  have hle : seg.toNat ≤ len.toNat := by
    rw [h, UInt32.toNat_min]
    exact min_le_left _ _
  rw [gt_iff_lt, UInt32.lt_iff_toNat_lt, UInt32.lt_iff_toNat_lt,
    UInt32.toNat_sub_of_le _ _ (UInt32.le_iff_toNat_le.2 hle)]
  simp

/-- A segment that is not the whole of the rest leaves something. -/
theorem pos_of_lt (h : seg < len) : len > 0 := by
  rw [gt_iff_lt, UInt32.lt_iff_toNat_lt]
  exact Nat.lt_of_le_of_lt (Nat.zero_le _) (UInt32.lt_iff_toNat_lt.1 h)

/-- **The loop uses the command after it was freed exactly when a nested call frees it that is not
the last one.** -/
theorem sendDataOut_use_iff (hn : Nests nested) : ∀ {turns : Nat} {w : World} {offset len : UInt32},
    w.Consistent → (w.pdus cmd).isSome →
    (iscsiSendDataOut (nestedService nested) turns w cmd ttt offset len = .error .useAfterFree ↔
      ∃ w', NotLast nested turns cmd ttt w offset len w' ∧ (nested w').pdus cmd = none) := by
  intro turns
  induction turns with
  | zero =>
    intro w offset len _ _
    refine iff_of_false ?_ ?_
    · unfold iscsiSendDataOut
      split <;> exact fun h => by cases h
    · rintro ⟨_, ⟨_, _, _, _, _, _, hlt, _⟩, _⟩
      exact absurd hlt (Nat.not_lt_zero _)
  | succ turns ih =>
    intro w offset len hw hcmd
    by_cases hlen : len > 0
    swap
    · -- nothing is to be sent
      refine iff_of_false ?_ ?_
      · rw [iscsiSendDataOut, if_neg hlen]
        exact fun h => by cases h
      · rintro ⟨_, ⟨_, _, _, _, _, hrun, _, _, hlt, _⟩, _⟩
        cases hrun with
        | refl => exact hlen (pos_of_lt hlt)
        | step h => exact hlen h
    set seg := min len w.iscsi.targetMaxRecvDataSegmentLength with hseg
    rcases sendOneDataOut_turn nested ttt offset seg (len == seg) hw hcmd with
      ⟨w₁, hturn, hlive⟩ | ⟨w₁, hid, hnested, hc₁, hlive⟩
    · -- the DATA-OUT is not allocated
      refine iff_of_false ?_ ?_
      · rw [iscsiSendDataOut_turn hlen hseg (hturn _)]
        exact dataOutError_noUse hlive
      · rintro ⟨_, ⟨_, _, _, _, seg', hrun, _, hseg', _, hsent, _⟩, _⟩
        cases hrun with
        | refl =>
          rw [hseg', ← hseg, hturn] at hsent
          cases hsent
        | step _ hseg'' h =>
          rw [hseg'', ← hseg, hturn] at h
          cases h
    rw [iscsiSendDataOut_turn hlen hseg hnested, if_pos rfl]
    set w₂ := afterQueue nested w.brk w₁ with hw₂
    have hc₂ : w₂.Consistent := hn.afterQueue hc₁
    -- the runs of the loop from the next turn on
    have hrest : ∀ {w'}, NotLast nested (turns + 1) cmd ttt w offset len w' ↔
        (0 < turns ∧ seg < len ∧ w' = w₁ ∧ w₁.iscsi.outqueue.head? = some w.brk) ∨
          NotLast nested turns cmd ttt w₂ (offset + seg) (len - seg) w' := by
      intro w'
      constructor
      · rintro ⟨sent, v, offset', len', seg', hrun, hlt, hseg', hless, hsent, hhead⟩
        cases hrun with
        | refl =>
          rw [hseg', ← hseg] at hsent hless
          obtain ⟨_, rfl⟩ := Prod.mk.inj (Except.ok.inj (hid.symm.trans hsent))
          exact .inl ⟨by simpa using hlt, hless, rfl, hhead⟩
        | step _ hseg'' h hrun =>
          rw [← hseg] at hseg''
          subst hseg''
          obtain ⟨_, rfl⟩ := Prod.mk.inj (Except.ok.inj (hnested.symm.trans h))
          exact .inr ⟨_, _, _, _, _, hrun, by simpa using hlt, hseg', hless, hsent, hhead⟩
      · rintro (⟨hturns, hless, rfl, hhead⟩ |
          ⟨sent, v, o, l, s, hrun, hlt, hs, hless, hsent, hhead⟩)
        · exact ⟨[], w, offset, len, seg, .refl .., by simpa using hturns, hseg, hless, hid, hhead⟩
        · exact ⟨_, _, _, _, _, .step hlen hseg hnested hrun, by simpa using hlt, hs, hless, hsent,
            hhead⟩
    simp only [hrest]
    by_cases hfreed : w₂.pdus cmd = none
    · -- the nested call frees the command
      have hhead : w₁.iscsi.outqueue.head? = some w.brk := by
        by_contra hne
        rw [hw₂, afterQueue, if_neg hne] at hfreed
        rw [hfreed] at hlive
        cases hlive
      rw [hw₂, afterQueue_of_head hhead] at hfreed
      by_cases hmore : seg < len
      · cases turns with
        | zero =>
          refine iff_of_false ?_ ?_
          · rw [iscsiSendDataOut]
            split <;> exact fun h => by cases h
          · rintro ⟨_, ⟨h, _⟩ | ⟨_, _, _, _, _, _, hlt, _⟩, _⟩
            · exact absurd h (Nat.lt_irrefl 0)
            · exact absurd hlt (Nat.not_lt_zero _)
        | succ turns =>
          refine iff_of_true ?_ ⟨w₁, .inl ⟨Nat.succ_pos _, hmore, rfl, hhead⟩, hfreed⟩
          have hfreed₂ : w₂.pdus cmd = none := by rw [hw₂, afterQueue_of_head hhead, hfreed]
          rw [iscsiSendDataOut, if_pos ((left_pos_iff hseg).2 hmore)]
          simp only [sendOneDataOut_freed hfreed₂, Outcome.error_bind]
      · have hdone : ¬len - seg > 0 := mt (left_pos_iff hseg).1 hmore
        refine iff_of_false ?_ ?_
        · unfold iscsiSendDataOut
          rw [if_neg hdone]
          exact fun h => by cases h
        · rintro ⟨_, ⟨_, h, _⟩ | ⟨_, _, _, _, _, hrun, _, _, hlt, _⟩, _⟩
          · exact hmore h
          · cases hrun with
            | refl => exact hdone (pos_of_lt hlt)
            | step h => exact hdone h
    · -- it does not
      rw [ih hc₂ (Option.isSome_iff_ne_none.2 hfreed)]
      constructor
      · rintro ⟨w', h, hnone⟩
        exact ⟨w', .inr h, hnone⟩
      · rintro ⟨w', ⟨_, _, rfl, hhead⟩ | h, hnone⟩
        · rw [hw₂, afterQueue_of_head hhead] at hfreed
          exact absurd hnone hfreed
        · exact ⟨w', h, hnone⟩

end

/-! ## The submissions up to their PDU -/

section
variable {w w' w₀ : World} {a : Addr}

/-- What a submission has done when it has a PDU to queue. -/
structure Started.Good (x : Started) : Prop where
  noUse : x ≠ .error .useAfterFree
  queue : ∀ a w', x = .ok (.inr a, w') →
    w'.Consistent ∧ (w'.pdus a).isSome ∧ a ∉ w'.iscsi.outqueue

theorem Started.good_inl (r : Int) (w : World) : Started.Good (.ok (.inl r, w)) where
  noUse h := by cases h
  queue _ _ h := by cases h

theorem Started.good_inr (h : w.Consistent) (ha : (w.pdus a).isSome)
    (hout : a ∉ w.iscsi.outqueue) : Started.Good (.ok (.inr a, w)) where
  noUse h := by cases h
  queue b v h := by
    obtain ⟨hb, rfl⟩ := Prod.mk.inj (Except.ok.inj h)
    obtain rfl := Sum.inr.inj hb
    exact ⟨‹_›, ha, hout⟩

/-- The data is added to a live PDU. -/
theorem addData_consistent {p : Pdu} (data : List UInt8) (h : w.Consistent)
    (hp : w.pdus a = some p) : ∃ ret w', addData w a data = .ok (ret, w') ∧ w'.Consistent ∧
      (w'.pdus a).isSome ∧ w'.iscsi = w.iscsi := by
  have ha : (w.pdus a).isSome := by rw [hp]; rfl
  unfold addData
  split
  swap
  · exact ⟨_, _, rfl, h, ha, rfl⟩
  unfold iscsiPduAddData
  split
  · exact ⟨_, _, rfl, h, ha, rfl⟩
  rw [World.malloc_eq]
  set v : World := { w with allocs := w.allocs.tail } with hv
  have hc : v.Consistent := h.congr rfl rfl rfl rfl
  have hpv : v.pdus a = some p := hp
  simp only [World.deref_eq_ok.2 hpv, Outcome.ok_bind]
  split
  · exact ⟨_, _, rfl, hc.setPdu ha, by rw [World.setPdu_pdus, Function.update_self]; rfl, rfl⟩
  · exact ⟨_, _, rfl, hc.setPdu ha, by rw [World.setPdu_pdus, Function.update_self]; rfl, rfl⟩

theorem startWithData_good {p : Pdu} {data : List UInt8} (h : w.Consistent)
    (hp : w.pdus a = some p) (hout : a ∉ w.iscsi.outqueue) : (startWithData w a data).Good := by
  obtain ⟨ret, w', hadd, hc, hlive, hiscsi⟩ := addData_consistent data h hp
  obtain ⟨q, hq⟩ := Option.isSome_iff_exists.1 hlive
  unfold startWithData
  rw [hadd]
  simp only [Outcome.ok_bind]
  split
  · unfold dropRequest iscsiFreePdu
    rw [World.deref_eq_ok.2 hq]
    exact Started.good_inl ..
  · exact Started.good_inr hc hlive (hiscsi ▸ hout)

theorem startNopOut_good {cb : Option Callback} {data : List UInt8} {privateData : Nat}
    (h : w.Consistent) : (startNopOut w cb data privateData).Good := by
  unfold startNopOut
  split
  · exact Started.good_inl ..
  split
  · exact Started.good_inl ..
  have h₁ : (iscsiIttPostIncrement w).2.Consistent := h.congr rfl rfl rfl rfl
  simp only
  rcases hal : iscsiAllocatePdu (iscsiIttPostIncrement w).2 iscsiPduNopOut iscsiPduNopIn
    (iscsiIttPostIncrement w).1 iscsiPduDropOnReconnect with ⟨_ | a, w₁⟩
  · exact Started.good_inl ..
  obtain ⟨rfl, rfl⟩ := iscsiAllocatePdu_some hal
  simp only [World.deref_eq_ok.2 (World.allocated_pdus_self ..), Outcome.ok_bind]
  exact startWithData_good (h₁.allocated.setPdu (by rw [World.allocated_pdus_self]; rfl))
    (Function.update_self ..) h₁.brk_notMem

theorem startTargetNopOut_good {ttt lun : UInt32} (h : w.Consistent) :
    (startTargetNopOut w ttt lun).Good := by
  unfold startTargetNopOut
  rcases hal : iscsiAllocatePdu w iscsiPduNopOut iscsiPduNoPdu 0xffffffff
    (iscsiPduDropOnReconnect ||| iscsiPduDeleteWhenSent) with ⟨_ | a, w₁⟩
  · exact Started.good_inl ..
  obtain ⟨rfl, rfl⟩ := iscsiAllocatePdu_some hal
  simp only [World.deref_eq_ok.2 (World.allocated_pdus_self ..), Outcome.ok_bind]
  exact startWithData_good (h.allocated.setPdu (by rw [World.allocated_pdus_self]; rfl))
    (Function.update_self ..) h.brk_notMem

/-- A command is prepared in a live PDU. -/
theorem prepareCommand_consistent (lun : UInt32) (t : TaskPtr) (cb : Option Callback)
    (privateData : Nat) {p : Pdu} (h : w.Consistent) (hp : w.pdus a = some p) :
    ∃ w', prepareCommand w a lun t cb privateData = .ok w' ∧ w'.Consistent ∧
      (w'.pdus a).isSome ∧ w'.iscsi.outqueue = w.iscsi.outqueue := by
  obtain ⟨w', hw'⟩ : ∃ w', prepareCommand w a lun t cb privateData = .ok w' := by
    have hset : ∀ (v : World) (q : Pdu) (n : UInt32), v.pdus a = some q →
        ∃ v', iscsiPduSetCmdsn v a n = .ok v' ∧ ∃ q', v'.pdus a = some q' := by
      intro v q n hq
      unfold iscsiPduSetCmdsn
      rw [World.deref_eq_ok.2 hq, Outcome.ok_bind]
      cases q.scsiCbdata.task with
      | none => exact ⟨_, rfl, _, Function.update_self ..⟩
      | some t => exact ⟨_, rfl, _, Function.update_self ..⟩
    unfold prepareCommand
    simp only [World.deref_eq_ok.2 hp, Outcome.ok_bind, World.modifyTask_iscsi,
      World.setPdu_iscsi]
    obtain ⟨v', hv', q', hq'⟩ := hset
      (((w.setPdu a (p.asCommand w.iscsi a lun t (w.tasks t) cb privateData)).modifyTask t
        fun task => { task with ptr := some a, lun }).modify fun c =>
          c.setCmdsn (w.iscsi.cmdsn + 1)) _ w.iscsi.cmdsn (Function.update_self ..)
    simp only [hv', Outcome.ok_bind, World.deref_eq_ok.2 hq']
    exact ⟨_, rfl⟩
  have hframe := prepareCommand_spec hp hw'
  have hpdus := congrArg (·.pdus) hframe
  have hiscsi := congrArg (·.iscsi) hframe
  have htrace := congrArg (·.trace) hframe
  simp only [World.put_pdus, World.put_iscsi, World.put_trace] at hpdus hiscsi htrace
  have hbrk : w'.brk = w.brk := congrArg (·.brk) hframe
  have hout : w'.iscsi.outqueue = w.iscsi.outqueue := by rw [hiscsi]; rfl
  have hself : (w'.pdus a).isSome := by rw [hpdus, Function.update_self]; rfl
  have hlive : ∀ b, (w'.pdus b).isSome ↔ (w.pdus b).isSome := fun b => by
    by_cases hba : b = a
    · rw [hba, hp]
      exact iff_of_true hself rfl
    · rw [hpdus, Function.update_of_ne hba]
  refine ⟨w', hw', ?_, hself, hout⟩
  refine h.of (fun b hb => (hlive b).2 (h.queued b (hout ▸ hb))) (le_of_eq hbrk.symm)
    (fun b hb => .inl ((hlive b).1 hb)) fun b hb => ?_
  obtain ⟨cb', status, pd, hb⟩ := hb
  rw [htrace] at hb
  exact ⟨cb', status, pd, by simpa using hb⟩

theorem startQueueCommand_good {lun : UInt32} {t : TaskPtr} {cb : Option Callback}
    {privateData : Nat} (h : w.Consistent) :
    (startQueueCommand w lun t cb privateData).Good := by
  unfold startQueueCommand
  have h₁ : (iscsiIttPostIncrement w).2.Consistent := h.congr rfl rfl rfl rfl
  simp only
  rcases hal : iscsiAllocatePdu (iscsiIttPostIncrement w).2 iscsiPduScsiRequest
    iscsiPduScsiResponse (iscsiIttPostIncrement w).1 0 with ⟨_ | a, w₁⟩
  · exact Started.good_inl ..
  obtain ⟨rfl, rfl⟩ := iscsiAllocatePdu_some hal
  obtain ⟨w', hprep, hc, hlive, hout⟩ := prepareCommand_consistent lun t cb privateData
    h₁.allocated (World.allocated_pdus_self _
      ((iscsiIttPostIncrement w).2.iscsi.freshPdu iscsiPduScsiRequest iscsiPduScsiResponse
        (iscsiIttPostIncrement w).1 0))
  simp only [hprep, Outcome.ok_bind]
  exact Started.good_inr hc hlive (hout ▸ h₁.brk_notMem)

theorem startCommand_good (lun : UInt32) (t : TaskPtr) (cb : Option Callback)
    (d : Option ScsiIovec) (privateData : Nat) (h : w.Consistent) :
    (startCommand w lun t cb d privateData).Good := by
  unfold startCommand
  split
  · exact Started.good_inl ..
  split
  · exact Started.good_inl ..
  cases d with
  | none => exact startQueueCommand_good h
  | some iov =>
    simp only [World.malloc_eq]
    split
    · exact Started.good_inl ..
    · exact startQueueCommand_good (h.congr rfl rfl rfl rfl)

end

/-! ## The submissions -/

section
variable {nested : World → World} {sub : Submission} {w w' w₀ w₁ : World} {a cmd : Addr}
  {ttt offset len offset' len' : UInt32} {sent : List Addr}

/-- The turns of the loop keep the heap consistent. -/
theorem BurstTurns.consistent (hn : Nests nested)
    (h : BurstTurns (nestedService nested) cmd ttt w offset len sent w' offset' len')
    (hw : w.Consistent) : w'.Consistent := by
  induction h with
  | refl => exact hw
  | step hlen hseg h _ ih =>
    refine ih ?_
    rcases sendOneDataOut_turn nested _ _ _ _ hw (live_of_sendOneDataOut h) with
      ⟨_, hturn, _⟩ | ⟨w₂, _, hturn, hc, _⟩
    · rw [hturn] at h
      cases h
    · rw [hturn] at h
      obtain ⟨_, rfl⟩ := Prod.mk.inj (Except.ok.inj h)
      exact hn.afterQueue hc

/-- A burst starts with a consistent heap and a live command. -/
theorem Bursts.start (hn : Nests nested) (hr : sub.Ready w)
    (h : Bursts nested sub w cmd ttt w₀ offset len) : w₀.Consistent ∧ (w₀.pdus cmd).isSome := by
  cases h with
  | command hstart _ hqueue hpdu =>
    obtain ⟨hc, hlive, hout⟩ := (startCommand_good _ _ _ _ _ hr).queue _ _ hstart
    obtain ⟨w', hq, _, hnested⟩ := hc.queue nested hlive hout
    obtain rfl := Except.ok.inj (hnested.symm.trans hqueue)
    exact ⟨hn.afterQueue hq.consistent, by rw [hpdu]; rfl⟩
  | unsolicited hpdu => exact hr
  | dataOut => exact hr
  | r2t inPdu hpdu =>
    exact ⟨hr.1.setPdu hr.2, by rw [World.setPdu_pdus, Function.update_self]; rfl⟩

/-- A PDU that was live when `service` was to be called is freed after that only by the call. -/
theorem afterQueue_freed (hlive : (w.pdus cmd).isSome) :
    (afterQueue nested a w).pdus cmd = none ↔
      w.iscsi.outqueue.head? = some a ∧ (nested w).pdus cmd = none := by
  unfold afterQueue
  split
  · next h => simp [h]
  · next h => simpa [h] using Option.isSome_iff_ne_none.1 hlive

/-- The message that a NOP-OUT was sent uses a PDU that was freed. -/
theorem logNopOut_use_iff :
    logNopOut w a = .error .useAfterFree ↔ w.iscsi.logsNopOut ∧ w.pdus a = none := by
  unfold logNopOut World.deref
  split
  · next h =>
    cases w.pdus a with
    | none => exact iff_of_true rfl ⟨h, rfl⟩
    | some p => exact iff_of_false (fun h => by cases h) fun h => by cases h.2
  · next h => exact iff_of_false (fun h => by cases h) fun h' => h h'.1

/-- A submission that failed before it had a PDU to queue. -/
theorem Started.Good.error_noUse {e : Fault} (h : Started.Good (.error e))
    {k : World → Addr → Res (Int × World)} :
    Started.thenQueue (.error e) k ≠ .error .useAfterFree := fun h' =>
  h.noUse (congrArg _ (Except.error.inj (show (Except.error e : Res (Int × World)) = _ from h')))

/-- A command that is submitted to a context put aside uses a freed PDU if it does there. -/
theorem iscsiScsiCommandAsync_target {service : World → Res World} {lun : UInt32} {t : TaskPtr}
    {cb : Option Callback} {d : Option ScsiIovec} {privateData : Nat} {e : Fault} :
    iscsiScsiCommandAsync service w lun t cb d privateData = .error e ↔
      commandHere service w.target lun t cb d privateData = .error e := by
  unfold iscsiScsiCommandAsync World.target
  cases w.olds with
  | nil => exact Iff.rfl
  | cons old olds =>
    simp only [Outcome.bind_eq_error]
    constructor
    · rintro (h | ⟨_, _, h⟩)
      · exact h
      · cases h
    · exact .inl

/-- A command that is queued, and its unsolicited data. -/
theorem command_use_iff (hn : Nests nested) {lun : UInt32} {t : TaskPtr} {cb : Option Callback}
    {d : Option ScsiIovec} {privateData : Nat} (hw : w.target.Consistent) :
    iscsiScsiCommandAsync (nestedService nested) w lun t cb d privateData =
        .error .useAfterFree ↔
      ∃ w' a, UsedAfter nested (.command lun t cb d privateData) w w' a ∧
        (nested w').pdus a = none := by
  rw [iscsiScsiCommandAsync_target, commandHere_eq]
  have hgood := startCommand_good lun t cb d privateData hw
  rcases hstart : startCommand w.target lun t cb d privateData with e | ⟨r | a, w₀⟩
  · refine iff_of_false (Started.Good.error_noUse (hstart ▸ hgood)) ?_
    rintro ⟨_, _, ⟨⟨h, _, _, _⟩, _⟩ | ⟨h, _, _, _⟩, _⟩ <;> rw [hstart] at h <;> cases h
  · refine iff_of_false (fun h => by cases h) ?_
    rintro ⟨_, _, ⟨⟨h, _, _, _⟩, _⟩ | ⟨h, _, _, _⟩, _⟩ <;> rw [hstart] at h <;> cases h
  obtain ⟨hc₀, hlive₀, hout₀⟩ := hgood.queue a w₀ hstart
  obtain ⟨w', hq, hid, hnested⟩ := hc₀.queue nested hlive₀ hout₀
  have hsame : ∀ {b v}, startCommand w.target lun t cb d privateData = .ok (.inr b, v) →
      b = a ∧ v = w₀ := fun h => by
    obtain ⟨hb, hv⟩ := Prod.mk.inj (Except.ok.inj (h.symm.trans hstart))
    exact ⟨Sum.inr.inj hb, hv⟩
  change submitCommand (nestedService nested) w₀ a t = _ ↔ _
  unfold submitCommand
  rw [hnested]
  simp only [Outcome.ok_bind]
  split
  swap
  · next hmore =>
    -- no unsolicited data
    refine iff_of_false (fun h => by cases h) ?_
    rintro ⟨_, _, ⟨⟨h, h', _, _⟩, _⟩ | ⟨h, h', _, _⟩, _⟩ <;>
      obtain ⟨rfl, rfl⟩ := hsame h <;> exact hmore h'
  next hmore =>
  set w₁ := afterQueue nested a w' with hw₁
  have hc₁ : w₁.Consistent := hn.afterQueue hq.consistent
  unfold iscsiSendUnsolicitedDataOut
  cases hpdu : w₁.pdus a with
  | none =>
    rw [show w₁.deref a = .error .useAfterFree by rw [World.deref, hpdu]]
    obtain ⟨hhead, hfreed⟩ := (afterQueue_freed hq.self).1 hpdu
    exact iff_of_true rfl ⟨w', a, .command hstart hmore hid hhead, hfreed⟩
  | some pdu =>
    rw [World.deref_eq_ok.2 hpdu, Outcome.ok_bind]
    set len := min pdu.expxferlen w₁.iscsi.firstBurstLength - UInt32.ofNat pdu.payloadLen
    have hloop : iscsiSendDataOut (nestedService nested) len.toNat w₁ a 0xffffffff
        (UInt32.ofNat pdu.payloadLen) len = .error .useAfterFree ↔ _ :=
      sendDataOut_use_iff hn hc₁ (by rw [hpdu]; rfl)
    rw [Outcome.bind_eq_error]
    constructor
    · rintro (h | ⟨_, _, h⟩)
      · obtain ⟨v, hv, hfreed⟩ := hloop.1 h
        exact ⟨v, a, .burst (.command hstart hmore hnested hpdu) hv, hfreed⟩
      · cases h
    · rintro ⟨v, b, huse, hfreed⟩
      cases huse with
      | burst hburst h =>
        cases hburst with
        | command hstart' _ hqueue hpdu' =>
          obtain ⟨rfl, rfl⟩ := hsame hstart'
          obtain rfl := Except.ok.inj (hnested.symm.trans hqueue)
          obtain rfl := Option.some.inj (hpdu.symm.trans hpdu')
          exact .inl (hloop.2 ⟨v, h, hfreed⟩)
      | command hstart' _ hqueue hhead =>
        obtain ⟨rfl, rfl⟩ := hsame hstart'
        obtain rfl := Except.ok.inj (hid.symm.trans hqueue)
        have := (afterQueue_freed hq.self).2 ⟨hhead, hfreed⟩
        rw [← hw₁, hpdu] at this
        cases this

/-- A submission whose PDU is a NOP-OUT. -/
theorem nop_use_iff {x : Started} {k : World → Addr → Res (Int × World)}
    {P : World → Addr → Prop} (hx : x.Good)
    (hk : ∀ a w₀, x = .ok (.inr a, w₀) → w₀.Consistent → (w₀.pdus a).isSome →
      a ∉ w₀.iscsi.outqueue → (k w₀ a = .error .useAfterFree ↔ P w₀ a)) :
    x.thenQueue k = .error .useAfterFree ↔ ∃ w₀ a, x = .ok (.inr a, w₀) ∧ P w₀ a := by
  rcases x with e | ⟨r | a, w₀⟩
  · refine iff_of_false hx.error_noUse ?_
    rintro ⟨_, _, h, _⟩
    cases h
  · refine iff_of_false (fun h => by cases h) ?_
    rintro ⟨_, _, h, _⟩
    cases h
  · obtain ⟨hc, hlive, hout⟩ := hx.queue a w₀ rfl
    change k w₀ a = _ ↔ _
    rw [hk a w₀ rfl hc hlive hout]
    constructor
    · exact fun h => ⟨w₀, a, rfl, h⟩
    · rintro ⟨v, b, h, hP⟩
      obtain ⟨hb, rfl⟩ := Prod.mk.inj (Except.ok.inj h)
      obtain rfl := Sum.inr.inj hb
      exact hP

/-- `iscsi_nop_out_async`. -/
theorem nopOut_use_iff {cb : Option Callback} {data : List UInt8} {privateData : Nat}
    (hw : w.Consistent) :
    iscsiNopOutAsync (nestedService nested) w cb data privateData = .error .useAfterFree ↔
      ∃ w' a, UsedAfter nested (.nopOut cb data privateData) w w' a ∧
        (nested w').pdus a = none := by
  rw [iscsiNopOutAsync_eq, nop_use_iff (P := fun w₀ a => ∃ w',
    iscsiQueuePdu .ok (w₀.modify fun c => c.setCmdsn (c.cmdsn + 1)) a = .ok w' ∧
      w'.iscsi.outqueue.head? = some a ∧ Context.logsNopOut { (nested w').iscsi with
        nopsInFlight := (nested w').iscsi.nopsInFlight + 1 } ∧ (nested w').pdus a = none)
    (startNopOut_good hw)]
  · constructor
    · rintro ⟨w₀, a, hstart, w', hqueue, hhead, hlogs, hfreed⟩
      exact ⟨w', a, .nopOut hstart hqueue hhead hlogs, hfreed⟩
    · rintro ⟨w', a, huse, hfreed⟩
      cases huse with
      | burst hburst => cases hburst
      | nopOut hstart hqueue hhead hlogs => exact ⟨_, a, hstart, w', hqueue, hhead, hlogs, hfreed⟩
  · intro a w₀ _ hc hlive hout
    set v := w₀.modify fun c => c.setCmdsn (c.cmdsn + 1) with hv
    have hcv : v.Consistent := hc.congr rfl rfl rfl rfl
    obtain ⟨w', hq, hid, hnested⟩ := hcv.queue nested hlive hout
    unfold finishNopOut
    rw [← hv, hnested, Outcome.ok_bind, Outcome.bind_eq_error, logNopOut_use_iff]
    constructor
    · rintro (⟨hlogs, hfreed⟩ | ⟨_, _, h⟩)
      · obtain ⟨hhead, hfreed⟩ := (afterQueue_freed hq.self).1 hfreed
        rw [afterQueue_of_head hhead] at hlogs
        exact ⟨w', hid, hhead, hlogs, hfreed⟩
      · cases h
    · rintro ⟨v', hqueue, hhead, hlogs, hfreed⟩
      obtain rfl := Except.ok.inj (hid.symm.trans hqueue)
      rw [afterQueue_of_head hhead]
      exact .inl ⟨hlogs, hfreed⟩

/-- `iscsi_send_target_nop_out`. -/
theorem targetNopOut_use_iff {ttt lun : UInt32} (hw : w.Consistent) :
    iscsiSendTargetNopOut (nestedService nested) w ttt lun = .error .useAfterFree ↔
      ∃ w' a, UsedAfter nested (.targetNopOut ttt lun) w w' a ∧ (nested w').pdus a = none := by
  rw [iscsiSendTargetNopOut_eq, nop_use_iff (P := fun w₀ a => ∃ w',
    iscsiQueuePdu .ok w₀ a = .ok w' ∧ w'.iscsi.outqueue.head? = some a ∧
      (nested w').iscsi.logsNopOut ∧ (nested w').pdus a = none) (startTargetNopOut_good hw)]
  · constructor
    · rintro ⟨w₀, a, hstart, w', hqueue, hhead, hlogs, hfreed⟩
      exact ⟨w', a, .targetNopOut hstart hqueue hhead hlogs, hfreed⟩
    · rintro ⟨w', a, huse, hfreed⟩
      cases huse with
      | burst hburst => cases hburst
      | targetNopOut hstart hqueue hhead hlogs =>
        exact ⟨_, a, hstart, w', hqueue, hhead, hlogs, hfreed⟩
  · intro a w₀ _ hc hlive hout
    obtain ⟨w', hq, hid, hnested⟩ := hc.queue nested hlive hout
    unfold queueRequest
    rw [hnested, Outcome.ok_bind, Outcome.bind_eq_error, logNopOut_use_iff]
    constructor
    · rintro (⟨hlogs, hfreed⟩ | ⟨_, _, h⟩)
      · obtain ⟨hhead, hfreed⟩ := (afterQueue_freed hq.self).1 hfreed
        rw [afterQueue_of_head hhead] at hlogs
        exact ⟨w', hid, hhead, hlogs, hfreed⟩
      · cases h
    · rintro ⟨v', hqueue, hhead, hlogs, hfreed⟩
      obtain rfl := Except.ok.inj (hid.symm.trans hqueue)
      rw [afterQueue_of_head hhead]
      exact .inl ⟨hlogs, hfreed⟩

/-- A burst for a command that is live. -/
theorem burst_use_iff (hn : Nests nested) (hr : sub.Ready w)
    (hburst : Bursts nested sub w cmd ttt w₀ offset len)
    (hrun : sub.run (nestedService nested) w = .error .useAfterFree ↔
      iscsiSendDataOut (nestedService nested) len.toNat w₀ cmd ttt offset len =
        .error .useAfterFree)
    (huse : ∀ w' a, UsedAfter nested sub w w' a →
      a = cmd ∧ NotLast nested len.toNat cmd ttt w₀ offset len w') :
    sub.run (nestedService nested) w = .error .useAfterFree ↔
      ∃ w' a, UsedAfter nested sub w w' a ∧ (nested w').pdus a = none := by
  obtain ⟨hc, hlive⟩ := hburst.start hn hr
  rw [hrun, sendDataOut_use_iff hn hc hlive]
  constructor
  · rintro ⟨w', h, hfreed⟩
    exact ⟨w', cmd, .burst hburst h, hfreed⟩
  · rintro ⟨w', a, h, hfreed⟩
    obtain ⟨rfl, h⟩ := huse w' a h
    exact ⟨w', h, hfreed⟩

/-- **A submission uses a PDU after it was freed exactly when a nested call frees a PDU that is
used after it.** -/
theorem submission_use_iff (hn : Nests nested) (hr : sub.Ready w) :
    sub.run (nestedService nested) w = .error .useAfterFree ↔
      ∃ w' a, UsedAfter nested sub w w' a ∧ (nested w').pdus a = none := by
  cases sub with
  | command lun t cb d privateData => exact command_use_iff hn hr
  | nopOut cb data privateData => exact nopOut_use_iff hr
  | targetNopOut ttt lun => exact targetNopOut_use_iff hr
  | dataOut cmd ttt offset len =>
    refine burst_use_iff hn hr (.dataOut ..) Iff.rfl fun w' a h => ?_
    cases h with
    | burst hburst h =>
      cases hburst
      exact ⟨rfl, h⟩
  | unsolicitedDataOut cmd =>
    obtain ⟨pdu, hpdu⟩ := Option.isSome_iff_exists.1 hr.2
    refine burst_use_iff hn hr (.unsolicited hpdu) ?_ fun w' a h => ?_
    · unfold Submission.run iscsiSendUnsolicitedDataOut
      simp only [World.deref_eq_ok.2 hpdu, Outcome.ok_bind]
    · cases h with
      | burst hburst h =>
        cases hburst with
        | unsolicited hpdu' =>
          obtain rfl := Option.some.inj (hpdu.symm.trans hpdu')
          exact ⟨rfl, h⟩
  | r2t cmd inPdu =>
    obtain ⟨pdu, hpdu⟩ := Option.isSome_iff_exists.1 hr.2
    refine burst_use_iff hn hr (.r2t inPdu hpdu) ?_ fun w' a h => ?_
    · unfold Submission.run iscsiProcessR2t
      simp only [World.deref_eq_ok.2 hpdu, Outcome.ok_bind, Outcome.bind_eq_error]
      constructor
      · rintro (h | ⟨_, _, h⟩)
        · exact h
        · cases h
      · exact .inl
    · cases h with
      | burst hburst h =>
        cases hburst with
        | r2t _ hpdu' =>
          obtain rfl := Option.some.inj (hpdu.symm.trans hpdu')
          exact ⟨rfl, h⟩

/-- **A submission is safe exactly when no nested call frees a PDU that is used after it**: the
command while a DATA-OUT of it is still to be sent, a NOP-OUT if the message that it was sent is
logged. -/
theorem submission_safe_iff (hn : Nests nested) (hr : sub.Ready w) :
    sub.Safe nested w ↔ ∀ w' a, UsedAfter nested sub w w' a → (nested w').pdus a ≠ none := by
  constructor
  · intro h w' a huse hfreed
    exact h.noUse ((submission_use_iff hn hr).2 ⟨w', a, huse, hfreed⟩)
  · intro h
    refine ⟨fun hrun => ?_, ?_⟩
    · obtain ⟨w', a, huse, hfreed⟩ := (submission_use_iff hn hr).1 hrun
      exact h w' a huse hfreed
    · intro cmd ttt w₀ offset len sent w₁ offset₁ len₁ w₂ hburst hturns hsent hdone
      have hc := hturns.consistent hn (hburst.start hn hr).1
      have hlive := live_of_sendOneDataOut hsent
      rw [(hc.completed cmd hdone).2] at hlive
      cases hlive

end

/-! ## A NOP-OUT that is sent and freed by the nested call -/

/-- A connection that logs what it sends. -/
def loggingWorld : World where
  iscsi := { isLoggedin := true, logLevel := 6, logFn := 1 }

theorem loggingWorld_consistent : loggingWorld.Consistent := by
  refine ⟨by simp [loggingWorld], by simp [loggingWorld], ?_⟩
  rintro a ⟨_, _, _, h⟩
  cases h

theorem nests_id : Nests id := ⟨fun _ h => h, fun _ => le_refl _, fun _ _ _ h => h⟩

theorem loggingWorld_ready : (Submission.targetNopOut 7 0).Ready loggingWorld :=
  loggingWorld_consistent

/-- A nested call that does nothing is safe. -/
theorem submission_safe_targetNopOut : (Submission.targetNopOut 7 0).Safe id loggingWorld :=
  (submission_safe_iff nests_id loggingWorld_ready).2 (by
    rintro w' a (⟨⟨⟩, _⟩ | _ | _ | ⟨hstart, hqueue, _, _⟩)
    obtain ⟨hc, hlive, hout⟩ := (startTargetNopOut_good loggingWorld_consistent).queue _ _ hstart
    obtain ⟨v, hq, hid, _⟩ := hc.queue id hlive hout
    obtain rfl := Except.ok.inj (hid.symm.trans hqueue)
    exact Option.isSome_iff_ne_none.1 hq.self)

/-- `service` sends the head of `outqueue` and frees it. -/
def sendHead (w : World) : World :=
  match w.iscsi.outqueue with
  | [] => w
  | a :: rest => (w.modify (·.setOutqueue (rest.filter (· ≠ a)))).release a

theorem nests_sendHead : Nests sendHead := by
  refine ⟨fun w h => ?_, fun w => ?_, fun w b _ hb => ?_⟩
  · unfold sendHead
    split
    · exact h
    · next a rest hq =>
      refine World.Consistent.release ?_ (by simp)
      refine h.of (fun b hb => h.queued b ?_) (le_refl _) (fun b hb => .inl hb) fun b hb => hb
      rw [hq]
      exact List.mem_cons_of_mem a (List.mem_filter.1 hb).1
  · unfold sendHead
    split <;> exact le_refl _
  · unfold sendHead
    split
    · exact hb
    · next a rest hq =>
      by_cases hba : b = a
      · simp [World.release, hba]
      · simpa [World.release, Function.update_of_ne hba] using hb

/-- The answer to a NOP-IN is sent and freed before it is logged. -/
theorem submission_uses_freed : ¬∀ (nested : World → World) (sub : Submission) (w : World),
    Nests nested → sub.Ready w → sub.Safe nested w := by
  intro h
  have hsafe := h sendHead (.targetNopOut 7 0) loggingWorld nests_sendHead loggingWorld_ready
  exact hsafe.noUse rfl

end Libiscsi
