import Libiscsi.Cancel

/-!
# What the scans do

One specification for each loop of `Libiscsi.Cancel`. A call through `pdu->callback` and the
release of a PDU are equations (`invokeCallback_eq`, `completePdu_eq`). For the loop over
`outqueue` the specification `unlinkOutqueue_spec` names everything that changes: the PDUs that
were selected are off the queue and in `tmp`, and every other PDU is the one it was but for its
CmdSN, which is smaller by the number of commands that were taken out before it.
-/

namespace Libiscsi

/-! ## Callbacks and release -/

namespace Pdu

/-- A PDU whose callback is `iscsi_scsi_response_cb` belongs to a task. -/
def HasTask (p : Pdu) : Prop := p.callback = some .scsiResponseCb → p.scsiCbdata.task.isSome

/-- The events of a call through `pdu->callback`. -/
def callbackEvents (p : Pdu) (a : Addr) (status : Status) : List Event :=
  match p.callback with
  | none => []
  | some cb =>
    .callback a cb status p.privateData ::
      match cb, p.scsiCbdata.callback, p.scsiCbdata.task with
      | .scsiResponseCb, some cb', some t =>
        [.scsiCallback cb' (scsiResponseStatus status) t p.scsiCbdata.privateData]
      | _, _, _ => []

/-- The context after a call through `pdu->callback`. -/
def callbackContext (p : Pdu) (c : Context) : Context :=
  if p.callback = some .reconnectAfterLogout then { c with pendingReconnect := true } else c

/-- The tasks after a call through `pdu->callback`. -/
def callbackTasks (p : Pdu) (status : Status) (tasks : TaskPtr → ScsiTask) :
    TaskPtr → ScsiTask :=
  match p.callback, p.scsiCbdata.task with
  | some .scsiResponseCb, some t =>
    Function.update tasks t { tasks t with status := scsiResponseStatus status }
  | _, _ => tasks

@[simp] theorem callbackContext_outqueue (p : Pdu) (c : Context) :
    (p.callbackContext c).outqueue = c.outqueue := by
  unfold callbackContext; split <;> rfl

@[simp] theorem callbackContext_waitpdu (p : Pdu) (c : Context) :
    (p.callbackContext c).waitpdu = c.waitpdu := by
  unfold callbackContext; split <;> rfl

@[simp] theorem callbackContext_outqueueCurrent (p : Pdu) (c : Context) :
    (p.callbackContext c).outqueueCurrent = c.outqueueCurrent := by
  unfold callbackContext; split <;> rfl

@[simp] theorem callbackContext_cmdsn (p : Pdu) (c : Context) :
    (p.callbackContext c).cmdsn = c.cmdsn := by
  unfold callbackContext; split <;> rfl

/-- A call through `pdu->callback` changes of a task its status only. -/
theorem callbackTasks_eq (p : Pdu) (status : Status) (tasks : TaskPtr → ScsiTask) (t : TaskPtr) :
    ∃ s, p.callbackTasks status tasks t = { tasks t with status := s } := by
  unfold callbackTasks
  rcases p.callback with _ | cb
  · exact ⟨_, rfl⟩
  rcases p.scsiCbdata.task with _ | t'
  · cases cb <;> exact ⟨_, rfl⟩
  cases cb with
  | scsiResponseCb =>
    by_cases h : t = t'
    · subst h
      exact ⟨_, Function.update_self ..⟩
    · exact ⟨_, Function.update_of_ne h ..⟩
  | _ => exact ⟨_, rfl⟩

end Pdu

/-- The world after a call through `pdu->callback`. -/
def World.called (w : World) (a : Addr) (p : Pdu) (status : Status) : World :=
  w.put (p.callbackContext w.iscsi) w.pdus (p.callbackTasks status w.tasks)
    (w.trace ++ p.callbackEvents a status)

/-- A call through `pdu->callback` of a live PDU. -/
theorem invokeCallback_eq {w : World} {a : Addr} {p : Pdu} (status : Status)
    (hp : w.pdus a = some p) (ht : p.HasTask) :
    invokeCallback w a status = .ok (w.called a p status) := by
  have hd : w.deref a = .ok p := World.deref_eq_ok.2 hp
  unfold invokeCallback
  rw [hd, Outcome.ok_bind]
  cases hcb : p.callback with
  | none =>
    simp [World.called, Pdu.callbackContext, Pdu.callbackTasks, Pdu.callbackEvents, hcb]
  | some cb =>
    cases cb with
    | scsiResponseCb =>
      obtain ⟨t, htask⟩ := Option.isSome_iff_exists.1 (ht hcb)
      cases hsc : p.scsiCbdata.callback <;>
        simp [runCallback, iscsiScsiResponseCb, World.called, Pdu.callbackContext,
          Pdu.callbackTasks, Pdu.callbackEvents, hcb, htask, hsc, World.log, World.modifyTask,
          World.put]
    | _ =>
      simp [runCallback, World.called, Pdu.callbackContext, Pdu.callbackTasks,
        Pdu.callbackEvents, hcb, World.log, World.modify, World.put]

section
variable {w w' : World} {a : Addr} {status : Status}

/-- A call through `pdu->callback` that returned. -/
theorem invokeCallback_called (h : invokeCallback w a status = .ok w') :
    ∃ p, w.pdus a = some p ∧ w' = w.called a p status := by
  unfold invokeCallback at h
  obtain ⟨p, hp, h'⟩ := Outcome.bind_eq_ok.1 h
  rw [World.deref_eq_ok] at hp
  refine ⟨p, hp, ?_⟩
  have ht : p.HasTask := by
    intro hcb
    rw [hcb] at h'
    by_contra hnone
    rw [Option.not_isSome_iff_eq_none] at hnone
    simp [runCallback, iscsiScsiResponseCb, hnone] at h'
  have := invokeCallback_eq status hp ht
  unfold invokeCallback at this
  rw [this] at h
  exact (Except.ok.inj h).symm

end

/-- A PDU is completed: the callback, then the release. -/
theorem completePdu_eq {w : World} {a : Addr} {p : Pdu} (status : Status)
    (hp : w.pdus a = some p) (ht : p.HasTask) :
    completePdu w a status = .ok ((w.called a p status).release a) := by
  unfold completePdu
  rw [invokeCallback_eq status hp ht, Outcome.ok_bind, iscsiFreePdu_eq_ok]
  exact ⟨by simp [World.called, hp], rfl⟩

/-! ## Renumbering -/

/-- `q` is `p` but for its CmdSN. -/
def Pdu.Renumbered (p q : Pdu) : Prop := q = p ∨ q = p.setCmdsn q.cmdsn

namespace Pdu.Renumbered

variable {p q r : Pdu}

protected theorem refl (p : Pdu) : p.Renumbered p := .inl rfl

theorem setCmdsn (p : Pdu) (v : UInt32) : p.Renumbered (p.setCmdsn v) := .inr rfl

theorem flags (h : p.Renumbered q) : q.flags = p.flags := by
  rcases h with rfl | h
  · rfl
  · rw [h]; rfl

theorem itt (h : p.Renumbered q) : q.itt = p.itt := by
  rcases h with rfl | h
  · rfl
  · rw [h]; rfl

theorem callback (h : p.Renumbered q) : q.callback = p.callback := by
  rcases h with rfl | h
  · rfl
  · rw [h]; rfl

theorem privateData (h : p.Renumbered q) : q.privateData = p.privateData := by
  rcases h with rfl | h
  · rfl
  · rw [h]; rfl

theorem scsiCbdata (h : p.Renumbered q) : q.scsiCbdata = p.scsiCbdata := by
  rcases h with rfl | h
  · rfl
  · rw [h]; rfl

theorem scsiTimeout (h : p.Renumbered q) : q.scsiTimeout = p.scsiTimeout := by
  rcases h with rfl | h
  · rfl
  · rw [h]; rfl

theorem byte (h : p.Renumbered q) {j : Nat} (hj : j < 24 ∨ 28 ≤ j) :
    Libiscsi.byte q.outdata j = Libiscsi.byte p.outdata j := by
  rcases h with rfl | h
  · rfl
  · rw [h, Pdu.byte_setCmdsn _ _ hj]

theorem opcode (h : p.Renumbered q) : q.opcode = p.opcode := by
  simp [Pdu.opcode, h.byte]

theorem immediate (h : p.Renumbered q) : q.immediate = p.immediate := by
  simp [Pdu.immediate, h.byte]

theorem isCommand (h : p.Renumbered q) : q.isCommand = p.isCommand := by
  simp [Pdu.isCommand, h.opcode, h.immediate]

theorem isWriteCdb (h : p.Renumbered q) : q.isWriteCdb = p.isWriteCdb := by
  simp [Pdu.isWriteCdb, h.byte]

theorem expired (h : p.Renumbered q) (t : Nat) : q.expired t = p.expired t := by
  simp [Pdu.expired, h.scsiTimeout]

theorem hasTask (h : p.Renumbered q) : q.HasTask ↔ p.HasTask := by
  simp [Pdu.HasTask, h.callback, h.scsiCbdata]

theorem callbackEvents (h : p.Renumbered q) (a : Addr) (status : Status) :
    q.callbackEvents a status = p.callbackEvents a status := by
  simp [Pdu.callbackEvents, h.callback, h.scsiCbdata, h.privateData]

protected theorem trans (h : p.Renumbered q) (h' : q.Renumbered r) : p.Renumbered r := by
  rcases h with rfl | h
  · exact h'
  rcases h' with rfl | h'
  · exact .inr h
  refine .inr ?_
  rw [h', h]
  simp only [Pdu.setCmdsn, Pdu.setField, scsiSetUint32_set]

end Pdu.Renumbered

/-- The PDUs of two heaps are the same but for CmdSNs. -/
def HeapRenumbered (pdus pdus' : Addr → Option Pdu) : Prop :=
  ∀ a, Option.Rel Pdu.Renumbered (pdus a) (pdus' a)

/-- The tasks are the same but for the CmdSN and the tag that a PDU leaves in its task. -/
def TasksRenumbered (tasks tasks' : TaskPtr → ScsiTask) : Prop :=
  ∀ t, ∃ cmdsn itt, tasks' t = { tasks t with cmdsn, itt }

section
variable {pdus pdus' pdus'' : Addr → Option Pdu} {tasks tasks' tasks'' : TaskPtr → ScsiTask}

theorem HeapRenumbered.refl (pdus : Addr → Option Pdu) : HeapRenumbered pdus pdus := by
  intro a
  cases pdus a with
  | none => exact .none
  | some p => exact .some (.refl p)

theorem HeapRenumbered.trans (h : HeapRenumbered pdus pdus')
    (h' : HeapRenumbered pdus' pdus'') : HeapRenumbered pdus pdus'' := by
  intro a
  have ha := h a
  have ha' := h' a
  revert ha ha'
  rcases pdus a with _ | p <;> rcases pdus' a with _ | q <;> rcases pdus'' a with _ | r <;>
    intro h h' <;> cases h <;> cases h'
  · exact .none
  · rename_i h h'
    exact .some (h.trans h')

/-- A PDU of the heap is, renumbered, a PDU of the other heap. -/
theorem HeapRenumbered.get (h : HeapRenumbered pdus pdus') {a : Addr} {p : Pdu}
    (hp : pdus a = some p) : ∃ q, pdus' a = some q ∧ p.Renumbered q := by
  have := h a
  rw [hp] at this
  generalize pdus' a = x at this
  cases this with
  | some h => exact ⟨_, rfl, h⟩

theorem HeapRenumbered.isSome_iff (h : HeapRenumbered pdus pdus') (a : Addr) :
    (pdus' a).isSome ↔ (pdus a).isSome := by
  have := h a
  revert this
  rcases pdus a with _ | p <;> rcases pdus' a with _ | q <;> intro this <;> cases this <;> simp

theorem TasksRenumbered.refl (tasks : TaskPtr → ScsiTask) : TasksRenumbered tasks tasks :=
  fun _ => ⟨_, _, rfl⟩

theorem TasksRenumbered.trans (h : TasksRenumbered tasks tasks')
    (h' : TasksRenumbered tasks' tasks'') : TasksRenumbered tasks tasks'' := by
  intro t
  obtain ⟨c, i, h⟩ := h t
  obtain ⟨c', i', h'⟩ := h' t
  exact ⟨c', i', by rw [h', h]⟩

theorem TasksRenumbered.lun (h : TasksRenumbered tasks tasks') (t : TaskPtr) :
    (tasks' t).lun = (tasks t).lun := by
  obtain ⟨_, _, h⟩ := h t
  rw [h]

end

/-- `if (cmdsn_gap > 0) …` of a live PDU. -/
theorem closeGap_ok {w : World} {a : Addr} {p : Pdu} (gap : UInt32) (hp : w.pdus a = some p) :
    ∃ w', closeGap w a gap = .ok w' ∧
      w' = w.put w.iscsi w'.pdus w'.tasks w.trace ∧
      (∃ q, w'.pdus = Function.update w.pdus a (some q) ∧ q.cmdsn = p.cmdsn - gap ∧
        p.Renumbered q) ∧
      TasksRenumbered w.tasks w'.tasks := by
  unfold closeGap
  by_cases hg : gap > 0
  · have hd : w.deref a = .ok p := World.deref_eq_ok.2 hp
    rw [if_pos hg, hd, Outcome.ok_bind]
    unfold iscsiPduSetCmdsn
    rw [hd, Outcome.ok_bind]
    cases ht : p.scsiCbdata.task with
    | none =>
      exact ⟨_, rfl, rfl, ⟨_, rfl, rfl, .setCmdsn p _⟩, fun t => ⟨_, _, rfl⟩⟩
    | some t' =>
      refine ⟨_, rfl, rfl, ⟨_, rfl, rfl, .setCmdsn p _⟩, fun t => ?_⟩
      by_cases h : t = t'
      · subst h
        exact ⟨_, _, Function.update_self ..⟩
      · exact ⟨_, _, Function.update_of_ne h ..⟩
  · have h0 : gap = 0 := by
      have := UInt32.le_iff_toNat_le.1 (UInt32.not_lt.1 hg)
      exact UInt32.toNat_inj.1 (by simpa using this)
    subst h0
    rw [if_neg hg]
    refine ⟨w, rfl, rfl, ⟨p, ?_, by simp, .refl p⟩, fun t => ⟨_, _, rfl⟩⟩
    rw [Function.update_eq_self_iff.2 hp.symm]

/-! ## The loop over `outqueue` -/

/-- The selection of a scan does not look at CmdSNs. -/
def SelStable (sel : World → Pdu → Bool) : Prop :=
  ∀ ⦃w w' p q⦄, p.Renumbered q → TasksRenumbered w.tasks w'.tasks → sel w' q = sel w p

theorem timedOut_stable (t : Nat) : SelStable (timedOut t) := by
  intro w w' p q h _
  simp [timedOut, h.expired, h.isCommand]

theorem taskOfLun_stable (lun : UInt32) : SelStable (taskOfLun lun) := by
  intro w w' p q h ht
  simp only [taskOfLun, h.scsiCbdata]
  split
  · rfl
  · rw [ht.lun]

namespace World

/-- The scan selects the PDU at an address. -/
def selects (w : World) (sel : World → Pdu → Bool) (a : Addr) : Bool :=
  match w.pdus a with
  | some p => sel w p
  | none => false

/-- The PDU at an address is a command. -/
def isCommandAt (w : World) (a : Addr) : Bool :=
  match w.pdus a with
  | some p => p.isCommand
  | none => false

/-- The number of commands a scan takes out of a list. -/
def gapOf (w : World) (sel : World → Pdu → Bool) (l : List Addr) : UInt32 :=
  UInt32.ofNat (l.countP fun a => w.selects sel a && w.isCommandAt a)

theorem selects_congr {w w' : World} {sel : World → Pdu → Bool} (hsel : SelStable sel)
    (hh : HeapRenumbered w.pdus w'.pdus) (ht : TasksRenumbered w.tasks w'.tasks) :
    w'.selects sel = w.selects sel := by
  funext a
  have := hh a
  unfold selects
  revert this
  rcases w.pdus a with _ | p <;> rcases w'.pdus a with _ | q <;> intro this <;> cases this
  · rfl
  · rename_i h
    exact hsel h ht

theorem isCommandAt_congr {w w' : World} (hh : HeapRenumbered w.pdus w'.pdus) :
    w'.isCommandAt = w.isCommandAt := by
  funext a
  have := hh a
  unfold isCommandAt
  revert this
  rcases w.pdus a with _ | p <;> rcases w'.pdus a with _ | q <;> intro this <;> cases this
  · rfl
  · rename_i h
    exact h.isCommand

theorem gapOf_cons (w : World) (sel : World → Pdu → Bool) (a : Addr) (l : List Addr) :
    w.gapOf sel (a :: l) =
      (if w.selects sel a && w.isCommandAt a then 1 else 0) + w.gapOf sel l := by
  unfold gapOf
  rw [List.countP_cons]
  split <;> simp [UInt32.ofNat_add, UInt32.add_comm]

end World

/-- What the loop over the part `l` of the queue `pre ++ l` does to a world: the selected PDUs are
off the queue, the CmdSN of the context is smaller by the number of commands among them, and the
PDUs of `l` that stay are renumbered by the number of commands taken out before them. -/
structure UnlinkSpec (sel : World → Pdu → Bool) (pre l : List Addr) (gap : UInt32)
    (w w' : World) : Prop where
  frame : w' = w.put
    ((w.iscsi.setOutqueue (pre ++ l.filter fun a => !w.selects sel a)).setCmdsn
      (w.iscsi.cmdsn - w.gapOf sel l)) w'.pdus w'.tasks w.trace
  heap : HeapRenumbered w.pdus w'.pdus
  tasks : TasksRenumbered w.tasks w'.tasks
  outside : ∀ a, a ∉ l → w'.pdus a = w.pdus a
  cmdsn : ∀ l₁ a l₂ p, l = l₁ ++ a :: l₂ → w.selects sel a = false → w.pdus a = some p →
    ∃ q, w'.pdus a = some q ∧ q.cmdsn = p.cmdsn - (gap + w.gapOf sel l₁)

/-- A heap with one PDU renumbered. -/
theorem HeapRenumbered.update {pdus : Addr → Option Pdu} {a : Addr} {p q : Pdu}
    (hp : pdus a = some p) (h : p.Renumbered q) :
    HeapRenumbered pdus (Function.update pdus a (some q)) := by
  intro b
  by_cases hb : b = a
  · subst hb
    rw [hp, Function.update_self]
    exact .some h
  · rw [Function.update_of_ne hb]
    exact HeapRenumbered.refl pdus b

/-- One turn of the loop, from `w` to `w₂`, and the turns after it. -/
theorem UnlinkSpec.cons {sel : World → Pdu → Bool} (hsel : SelStable sel) {pre i l : List Addr}
    {a : Addr} {gap g : UInt32} {w v w' : World} {p q : Pdu} (hal : a ∉ l)
    (hp : w.pdus a = some p) (hupd : v.pdus = Function.update w.pdus a (some q))
    (hpq : p.Renumbered q) (hqsn : q.cmdsn = p.cmdsn - gap)
    (htasks : TasksRenumbered w.tasks v.tasks)
    (hframe : v = w.put ((w.iscsi.setOutqueue v.iscsi.outqueue).setCmdsn (w.iscsi.cmdsn - g))
      v.pdus v.tasks w.trace)
    (hg : g = if w.selects sel a && w.isCommandAt a then 1 else 0)
    (hpre : i ++ l.filter (fun b => !w.selects sel b) =
      pre ++ (a :: l).filter fun b => !w.selects sel b)
    (hspec : UnlinkSpec sel i l (gap + g) v w') : UnlinkSpec sel pre (a :: l) gap w w' := by
  have hheap : HeapRenumbered w.pdus v.pdus := by rw [hupd]; exact .update hp hpq
  have hsel₂ : v.selects sel = w.selects sel := World.selects_congr hsel hheap htasks
  have hcmd₂ : v.isCommandAt = w.isCommandAt := World.isCommandAt_congr hheap
  have hgap : ∀ l', v.gapOf sel l' = w.gapOf sel l' := fun l' => by
    simp only [World.gapOf, hsel₂, hcmd₂]
  refine ⟨?_, hheap.trans hspec.heap, htasks.trans hspec.tasks, fun b hb => ?_, ?_⟩
  · refine hspec.frame.trans ((World.put_of_eq_put _ _ _ _ _ _ _ _ hframe).trans ?_)
    have hiscsi : v.iscsi = (w.iscsi.setOutqueue v.iscsi.outqueue).setCmdsn
        (w.iscsi.cmdsn - g) := congrArg World.iscsi hframe
    have hsn : v.iscsi.cmdsn - v.gapOf sel l = w.iscsi.cmdsn - w.gapOf sel (a :: l) := by
      rw [World.gapOf_cons, ← hg, hgap, hiscsi, Context.setCmdsn_cmdsn]
      grind
    have htrace : v.trace = w.trace := by rw [hframe]; rfl
    rw [hsn, hsel₂, hpre, htrace, hiscsi]
    rfl
  · rw [List.mem_cons, not_or] at hb
    rw [hspec.outside b hb.2, hupd, Function.update_of_ne hb.1]
  · intro l₁ b l₂ r hl hkeep hb
    cases l₁ with
    | nil =>
      obtain ⟨rfl, rfl⟩ := List.cons.inj hl
      rw [hp, Option.some.injEq] at hb
      subst hb
      exact ⟨q, by rw [hspec.outside a hal, hupd, Function.update_self],
        by simpa [World.gapOf] using hqsn⟩
    | cons c l₁ =>
      obtain ⟨rfl, hl'⟩ := List.cons.inj hl
      have hba : b ≠ a := by
        rintro rfl
        exact hal (hl' ▸ by simp)
      obtain ⟨q', hq', hsn⟩ := hspec.cmdsn l₁ b l₂ r hl' (by rw [hsel₂]; exact hkeep)
        (by rw [hupd, Function.update_of_ne hba]; exact hb)
      refine ⟨q', hq', ?_⟩
      rw [hsn, World.gapOf_cons, ← hg, hgap]
      grind

/-- **The loop over `outqueue`** takes out what is selected and renumbers what stays. -/
theorem unlinkOutqueue_spec {sel : World → Pdu → Bool} (hsel : SelStable sel) :
    ∀ {l i j : List Addr} {n : UInt32} {w : World}, w.iscsi.outqueue = i ++ l →
      (i ++ l).Nodup → (∀ a ∈ l, (w.pdus a).isSome) →
      ∃ w', unlinkOutqueue sel l n j w = .ok (j ++ l.filter (w.selects sel), w') ∧
        UnlinkSpec sel i l n w w'
  | [], pre, tmp, gap, w, hq, _, _ => by
    refine ⟨w, by simp [unlinkOutqueue], ?_, .refl _, .refl _, fun _ _ => rfl, ?_⟩
    · simp only [List.append_nil] at hq
      simp [World.gapOf, ← hq]
    · intro l₁ a l₂ p h
      simp at h
  | a :: l, pre, tmp, gap, w, hq, hnd, hlive => by
    obtain ⟨p, hp⟩ := Option.isSome_iff_exists.1 (hlive a (by simp))
    obtain ⟨w₁, hw₁, hframe, ⟨q, hupd, hqsn, hpq⟩, htasks⟩ := closeGap_ok gap hp
    have hheap : HeapRenumbered w.pdus w₁.pdus := by rw [hupd]; exact .update hp hpq
    have hd₁ : w₁.deref a = .ok q := World.deref_eq_ok.2 (by rw [hupd, Function.update_self])
    have hselq : sel w₁ q = w.selects sel a := by
      rw [hsel hpq htasks, World.selects, hp]
    have hcmd : q.isCommand = w.isCommandAt a := by
      rw [hpq.isCommand, World.isCommandAt, hp]
    have hiscsi : w₁.iscsi = w.iscsi := by rw [hframe]; rfl
    have hal : a ∉ l := (List.nodup_cons.1 (List.nodup_append.1 hnd).2.1).1
    have hapre : a ∉ pre := fun h => (List.nodup_append.1 hnd).2.2 a h a (by simp) rfl
    have hlive₁ : ∀ b ∈ l, (w₁.pdus b).isSome := fun b hb => by
      rw [hheap.isSome_iff]
      exact hlive b (List.mem_cons_of_mem _ hb)
    have hfilter : ∀ w₂ : World, w₂.pdus = w₁.pdus → w₂.tasks = w₁.tasks →
        w₂.selects sel = w.selects sel := fun w₂ h₁ h₂ =>
      World.selects_congr hsel (by rw [h₁]; exact hheap) (by rw [h₂]; exact htasks)
    rw [unlinkOutqueue, hw₁, Outcome.ok_bind, hd₁, Outcome.ok_bind, hselq, hcmd]
    cases hs : w.selects sel a with
    | true =>
      have hmem : a ∈ w₁.iscsi.outqueue := by rw [hiscsi, hq]; simp
      have herase : w₁.iscsi.outqueue.erase a = pre ++ l := by
        rw [hiscsi, hq, List.erase_append_right _ hapre, List.erase_cons_head]
      rw [if_pos rfl, listRemove_of_mem hmem, Outcome.ok_bind, herase]
      set w₂ := w₁.modify fun c => (c.setOutqueue (pre ++ l)).setCmdsn
        (if w.isCommandAt a then c.cmdsn - 1 else c.cmdsn) with hw₂
      obtain ⟨w', hw', hspec⟩ := unlinkOutqueue_spec hsel (l := l) (i := pre)
        (j := tmp ++ [a]) (n := if w.isCommandAt a then gap + 1 else gap) (w := w₂)
        rfl (List.nodup_cons.1 (List.nodup_middle.1 hnd)).2 hlive₁
      have hg : (if w.isCommandAt a then gap + 1 else gap) =
          gap + if w.isCommandAt a then 1 else 0 := by
        cases w.isCommandAt a <;> simp
      rw [hg] at hspec
      refine ⟨w', ?_, UnlinkSpec.cons hsel (i := pre) (v := w₂)
        (g := if w.isCommandAt a then 1 else 0) hal hp hupd hpq hqsn htasks ?_
        (by simp [hs]) (by simp [hs]) hspec⟩
      · rw [hw', hfilter w₂ rfl rfl, List.filter_cons_of_pos hs]
        simp
      · have hsn : (if w.isCommandAt a then w.iscsi.cmdsn - 1 else w.iscsi.cmdsn) =
            w.iscsi.cmdsn - if w.isCommandAt a then 1 else 0 := by
          cases w.isCommandAt a <;> simp
        rw [← hsn, hw₂, hframe]
        rfl
    | false =>
      rw [if_neg (by simp)]
      obtain ⟨w', hw', hspec⟩ := unlinkOutqueue_spec hsel (l := l) (i := pre ++ [a])
        (j := tmp) (n := gap) (w := w₁) (by rw [hiscsi, hq]; simp)
        (by simpa using hnd) hlive₁
      refine ⟨w', ?_, UnlinkSpec.cons hsel (i := pre ++ [a]) (g := 0) hal hp hupd hpq hqsn
        htasks ?_ (by simp [hs]) (by simp [hs]) (by simpa using hspec)⟩
      · rw [hw', hfilter w₁ rfl rfl, List.filter_cons_of_neg (by simp [hs])]
      · rw [hframe]
        simp

/-! ## The loop over `waitpdu` -/

/-- A loop whose test succeeds on every element is the test of the list. -/
theorem anyM_eq_ok {f : Addr → Res Bool} {g : Addr → Bool} :
    ∀ {l : List Addr}, (∀ a ∈ l, f a = .ok (g a)) → l.anyM f = .ok (l.any g)
  | [], _ => rfl
  | a :: l, h => by
    have ih := anyM_eq_ok (l := l) fun b hb => h b (List.mem_cons_of_mem _ hb)
    rw [List.anyM, h a (by simp), Outcome.ok_bind, List.any_cons]
    cases g a with
    | true => rfl
    | false => simpa using ih

/-- The PDU is one for which `iscsi_pdu_data_out_inprocess` takes the lock. -/
def Pdu.isWriteRequest (p : Pdu) : Bool := p.opcode == iscsiPduScsiRequest && p.isWriteCdb

theorem Pdu.Renumbered.isWriteRequest {p q : Pdu} (h : p.Renumbered q) :
    q.isWriteRequest = p.isWriteRequest := by
  simp [Pdu.isWriteRequest, h.opcode, h.isWriteCdb]

namespace World

/-- Some PDU being sent, or queued in the list, belongs to the task of `p`. -/
def taskBusy (w : World) (outqueue : List Addr) (p : Pdu) : Bool :=
  (w.iscsi.outqueueCurrent.toList ++ outqueue).any fun a =>
    match w.pdus a with
    | some q => decide (q.scsiCbdata.task = p.scsiCbdata.task)
    | none => false

/-- The PDU at an address of `waitpdu` has expired and no PDU of its task, being sent or in the
list, keeps it there. -/
def waitDue (w : World) (outqueue : List Addr) (a : Addr) : Bool :=
  match w.pdus a with
  | some p => p.expired w.now && !(p.isWriteRequest && w.taskBusy outqueue p)
  | none => false

/-- The PDU at an address is one for which the scan of `waitpdu` takes the lock it holds. -/
def locksTwice (w : World) (a : Addr) : Bool :=
  match w.pdus a with
  | some p => w.havePthread && p.expired w.now && p.isWriteRequest
  | none => false

/-- The queues are lists of live PDUs, no PDU is queued twice, and the PDU being sent is live and
not in `outqueue`. -/
structure QueuesOk (w : World) : Prop where
  nodup : (w.iscsi.outqueue ++ w.iscsi.waitpdu).Nodup
  live : ∀ a ∈ w.iscsi.outqueue ++ w.iscsi.waitpdu, ∃ p, w.pdus a = some p ∧ p.HasTask
  current : ∀ a, w.iscsi.outqueueCurrent = some a → a ∉ w.iscsi.outqueue ∧ (w.pdus a).isSome

end World

/-- The test of the scan of `waitpdu`, where it does not take the lock twice. -/
theorem iscsiPduDataOutInprocess_eq {w : World} {p : Pdu}
    (hlive : ∀ a ∈ w.iscsi.outqueueCurrent.toList ++ w.iscsi.outqueue, (w.pdus a).isSome)
    (hlock : p.isWriteRequest → w.havePthread = false) :
    iscsiPduDataOutInprocess w p =
      .ok (p.isWriteRequest && w.taskBusy w.iscsi.outqueue p) := by
  unfold iscsiPduDataOutInprocess
  by_cases hop : p.opcode = iscsiPduScsiRequest
  swap
  · simp [hop, Pdu.isWriteRequest]
  by_cases hcdb : p.isWriteCdb
  swap
  · simp [hop, hcdb, Pdu.isWriteRequest]
  have hw : p.isWriteRequest = true := by simp [Pdu.isWriteRequest, hop, hcdb]
  simp only [hop, hcdb, hw, hlock hw, ne_eq, not_true_eq_false, Bool.not_true, Bool.true_and,
    if_false, Bool.false_eq_true]
  refine anyM_eq_ok fun a ha => ?_
  obtain ⟨q, hq⟩ := Option.isSome_iff_exists.1 (hlive a ha)
  rw [World.deref_eq_ok.2 hq, Outcome.ok_bind, hq]

/-- The scan of `waitpdu` deadlocks on the first PDU it locks twice for. -/
theorem iscsiPduDataOutInprocess_deadlock {w : World} {p : Pdu} (hw : p.isWriteRequest)
    (hlock : w.havePthread) : iscsiPduDataOutInprocess w p = .error .deadlock := by
  obtain ⟨hop, hcdb⟩ := Bool.and_eq_true_iff.1 hw
  simp [iscsiPduDataOutInprocess, beq_iff_eq.1 hop, hcdb, hlock]

/-- The loop over the part `l` of `waitpdu`: the PDUs that are due are in `tmp`, and nothing else
changes. -/
theorem timeoutWaitpdu_eq : ∀ {l i j : List Addr} {w : World},
    w.iscsi.waitpdu = i ++ l → (i ++ l).Nodup → (∀ a ∈ l, (w.pdus a).isSome) →
    (∀ a ∈ w.iscsi.outqueueCurrent.toList ++ w.iscsi.outqueue, (w.pdus a).isSome) →
    (∀ a ∈ l, w.locksTwice a = false) →
    timeoutWaitpdu w.now l j w =
      .ok (j ++ l.filter (w.waitDue w.iscsi.outqueue),
        w.modify (·.setWaitpdu (i ++ l.filter fun a => !w.waitDue w.iscsi.outqueue a)))
  | [], pre, tmp, w, hq, _, _, _, _ => by
    have hself : w.modify (·.setWaitpdu pre) = w := by
      rw [← List.append_nil pre, ← hq]
      rfl
    simp [timeoutWaitpdu, hself]
  | a :: l, pre, tmp, w, hq, hnd, hlive, hout, hlock => by
    obtain ⟨p, hp⟩ := Option.isSome_iff_exists.1 (hlive a (by simp))
    have hapre : a ∉ pre := fun h => (List.nodup_append.1 hnd).2.2 a h a (by simp) rfl
    have hlive' : ∀ b ∈ l, (w.pdus b).isSome := fun b hb => hlive b (List.mem_cons_of_mem _ hb)
    have hlock' : ∀ b ∈ l, w.locksTwice b = false := fun b hb =>
      hlock b (List.mem_cons_of_mem _ hb)
    -- a PDU that stays goes to the part of the queue that was walked
    have hkeep := timeoutWaitpdu_eq (l := l) (i := pre ++ [a]) (j := tmp) (w := w)
      (by rw [hq]; simp) (by simpa using hnd) hlive' hout hlock'
    rw [timeoutWaitpdu, World.deref_eq_ok.2 hp, Outcome.ok_bind]
    have hdue : w.waitDue w.iscsi.outqueue a =
        (p.expired w.now && !(p.isWriteRequest && w.taskBusy w.iscsi.outqueue p)) := by
      rw [World.waitDue, hp]
    cases hexp : p.expired w.now with
    | false =>
      have hdue' : w.waitDue w.iscsi.outqueue a = false := by rw [hdue, hexp]; rfl
      rw [if_neg (by simp), hkeep]
      simp [hdue']
    | true =>
      have hwl : p.isWriteRequest → w.havePthread = false := fun hw => by
        simpa [World.locksTwice, hp, hexp, hw] using hlock a (by simp)
      rw [if_pos rfl, iscsiPduDataOutInprocess_eq hout hwl, Outcome.ok_bind]
      cases hbusy : p.isWriteRequest && w.taskBusy w.iscsi.outqueue p with
      | true =>
        have hdue' : w.waitDue w.iscsi.outqueue a = false := by rw [hdue, hexp, hbusy]; rfl
        rw [if_pos rfl, hkeep]
        simp [hdue']
      | false =>
        have hdue' : w.waitDue w.iscsi.outqueue a = true := by rw [hdue, hexp, hbusy]; rfl
        have hmem : a ∈ w.iscsi.waitpdu := by rw [hq]; simp
        have herase : w.iscsi.waitpdu.erase a = pre ++ l := by
          rw [hq, List.erase_append_right _ hapre, List.erase_cons_head]
        rw [if_neg (by simp), listRemove_of_mem hmem, Outcome.ok_bind, herase]
        have ih := timeoutWaitpdu_eq (l := l) (i := pre) (j := tmp ++ [a])
          (w := w.modify (·.setWaitpdu (pre ++ l))) rfl
          (List.nodup_cons.1 (List.nodup_middle.1 hnd)).2 hlive' hout hlock'
        refine Eq.trans ih ?_
        have hsame : (w.modify (·.setWaitpdu (pre ++ l))).waitDue w.iscsi.outqueue =
            w.waitDue w.iscsi.outqueue := rfl
        simp only [World.modify_iscsi, Context.setWaitpdu_outqueue, hsame,
          List.filter_cons_of_pos hdue', List.append_assoc, List.singleton_append,
          List.filter_cons, hdue', Bool.not_true, Bool.false_eq_true, if_false]
        rfl

/-- The scan of `waitpdu` deadlocks where it would take the lock twice. -/
theorem timeoutWaitpdu_deadlock : ∀ {l tmp : List Addr} {w w' : World} {tmp' : List Addr},
    timeoutWaitpdu w.now l tmp w = .ok (tmp', w') → ∀ a ∈ l, w.locksTwice a = false
  | [], _, _, _, _, _ => by simp
  | a :: l, tmp, w, w', tmp', h => by
    rw [timeoutWaitpdu] at h
    obtain ⟨p, hp, h⟩ := Outcome.bind_eq_ok.1 h
    rw [World.deref_eq_ok] at hp
    rw [List.forall_mem_cons]
    cases hexp : p.expired w.now with
    | false =>
      rw [hexp, if_neg (by simp)] at h
      exact ⟨by simp [World.locksTwice, hp, hexp], timeoutWaitpdu_deadlock h⟩
    | true =>
      rw [hexp, if_pos rfl] at h
      obtain ⟨b, hb, h⟩ := Outcome.bind_eq_ok.1 h
      refine ⟨?_, ?_⟩
      · by_contra hl
        simp only [World.locksTwice, hp, hexp, Bool.and_true, Bool.not_eq_false,
          Bool.and_eq_true] at hl
        rw [iscsiPduDataOutInprocess_deadlock hl.2 hl.1] at hb
        cases hb
      · cases b with
        | true => exact timeoutWaitpdu_deadlock h
        | false =>
          rw [if_neg (by simp)] at h
          obtain ⟨waitpdu, _, h⟩ := Outcome.bind_eq_ok.1 h
          exact timeoutWaitpdu_deadlock (w := w.modify (·.setWaitpdu waitpdu)) h

end Libiscsi
