import Libiscsi.Requests
import Libiscsi.TimeoutCorrect

/-!
# LUN reset: what is cancelled

`iscsi_task_mgmt_lun_reset_async` (`lib/task_mgmt.c`) first cancels the PDUs of the LUN.
`iscsi_cancel_lun_pdus` walks `outqueue` only, so that a command that waits for its response stays
in `waitpdu`, and completes one of the PDUs it takes out of `outqueue` (`completeTmp`). The LUN is
cleared exactly when nothing of it waits for a response and at most one of its PDUs is queued
(`iscsiCancelLunPdus_clears_iff`).
-/

namespace Libiscsi

/-- `iscsi_task_mgmt_lun_reset_async`. -/
def iscsiTaskMgmtLunResetAsync (service : World → Res World) (w : World) (lun : UInt32)
    (cb : Option Callback) (privateData : Nat) : Res (Int × World) := do
  let w ← iscsiCancelLunPdus w lun
  iscsiTaskMgmtAsync service w lun .lunReset 0xffffffff 0 cb privateData

/-- The PDU at an address belongs to a task of the LUN. -/
def World.ofLun (w : World) (lun : UInt32) : Addr → Bool := w.selects (taskOfLun lun)

/-- What a LUN reset should do to the queues: of the PDUs of the LUN none is left, and each was
freed once, after one call of its callback, if it has one, with `SCSI_STATUS_CANCELLED`; all other
PDUs are linked in the order they were, and not completed. -/
structure LunCleared (lun : UInt32) (w w' : World) : Prop where
  gone : ∀ a ∈ w'.iscsi.outqueue ++ w'.iscsi.waitpdu, w'.ofLun lun a = false
  completed : ∀ a ∈ w.iscsi.outqueue ++ w.iscsi.waitpdu, ∀ p, w.pdus a = some p →
    taskOfLun lun w p → w'.pdus a = none ∧
      (w.newEvents w').filter (Event.isFreeOf a) = [.free a] ∧
      (w.newEvents w').filter (Event.isCallbackOf a) =
        (p.callback.map fun cb =>
          Event.callback a cb scsiStatusCancelled p.privateData).toList
  outqueue : w'.iscsi.outqueue = w.iscsi.outqueue.filter fun a => !w.ofLun lun a
  waitpdu : w'.iscsi.waitpdu = w.iscsi.waitpdu.filter fun a => !w.ofLun lun a
  uncompleted : ∀ a ∈ w'.iscsi.outqueue ++ w'.iscsi.waitpdu, (w'.pdus a).isSome ∧
    (w.newEvents w').filter (Event.isCallbackOf a) = []

/-! ## What is cancelled -/

/-- The PDUs of the LUN in `outqueue`. -/
def World.lunQueued (w : World) (lun : UInt32) : List Addr := w.iscsi.outqueue.filter (w.ofLun lun)

/-- The completion of a PDU leaves the LUN of every task. -/
theorem completeTmp_lun {w w' : World} {l : List Addr} {status : Status}
    (h : completeTmp w l status = .ok w') (t : TaskPtr) : (w'.tasks t).lun = (w.tasks t).lun := by
  cases l with
  | nil => rw [← Except.ok.inj h]
  | cons a l =>
    obtain ⟨w₁, h₁, h₂⟩ := Outcome.bind_eq_ok.1 h
    obtain ⟨p, _, rfl⟩ := invokeCallback_called h₁
    obtain ⟨_, rfl⟩ := (iscsiFreePdu_eq_ok ..).1 h₂
    obtain ⟨s, hs⟩ := p.callbackTasks_eq status w.tasks t
    exact (congrArg ScsiTask.lun hs :)

/-- `iscsi_cancel_lun_pdus` takes the PDUs of the LUN out of `outqueue`, completes the first of
them, and leaves everything else but CmdSNs. -/
theorem iscsiCancelLunPdus_spec {w : World} (lun : UInt32) (hw : w.QueuesOk) :
    ∃ w', iscsiCancelLunPdus w lun = .ok w' ∧
      w'.iscsi.outqueue = (w.iscsi.outqueue.filter fun a => !w.ofLun lun a) ∧
      w'.iscsi.waitpdu = w.iscsi.waitpdu ∧
      (∀ a ∈ (w.lunQueued lun).take 1, w'.pdus a = none) ∧
      (∀ a, a ∉ (w.lunQueued lun).take 1 → Option.Rel Pdu.Renumbered (w.pdus a) (w'.pdus a)) ∧
      (∀ t, (w'.tasks t).lun = (w.tasks t).lun) ∧
      w'.trace = w.trace ++
        ((w.lunQueued lun).take 1).flatMap (w.completionEvents scsiStatusCancelled) := by
  have hlive : ∀ a ∈ w.iscsi.outqueue, ∃ p, w.pdus a = some p ∧ p.HasTask := fun a ha =>
    hw.live a (List.mem_append_left _ ha)
  obtain ⟨w₁, h₁, hspec⟩ := unlinkOutqueue_spec (taskOfLun_stable lun) (i := []) (j := [])
    (n := 0) (w := w) rfl (List.nodup_append.1 hw.nodup).1 fun a ha => by
      obtain ⟨p, hp, _⟩ := hlive a ha
      simp [hp]
  have hmem : ∀ a ∈ w.lunQueued lun, a ∈ w.iscsi.outqueue := fun a ha => (List.mem_filter.1 ha).1
  have hlive₁ : ∀ a ∈ w.lunQueued lun, ∃ p, w₁.pdus a = some p ∧ p.HasTask := fun a ha => by
    obtain ⟨p, hp, ht⟩ := hlive a (hmem a ha)
    obtain ⟨q, hq, hpq⟩ := hspec.heap.get hp
    exact ⟨q, hq, hpq.hasTask.2 ht⟩
  obtain ⟨w₂, h₂, hout, hwait, _, hother, hfreed, htrace, _⟩ :=
    completeTmp_spec scsiStatusCancelled hlive₁
  have hiscsi₁ : w₁.iscsi.outqueue = (w.iscsi.outqueue.filter fun a => !w.ofLun lun a) ∧
      w₁.iscsi.waitpdu = w.iscsi.waitpdu := by
    rw [hspec.frame]
    exact ⟨rfl, rfl⟩
  have htrace₁ : w₁.trace = w.trace := by rw [hspec.frame]; rfl
  refine ⟨w₂, ?_, hout.trans hiscsi₁.1, hwait.trans hiscsi₁.2, hfreed, fun a ha => ?_,
    fun t => ?_, ?_⟩
  · unfold iscsiCancelLunPdus
    rw [h₁, Outcome.ok_bind]
    exact h₂
  · rw [hother a ha]
    exact hspec.heap a
  · rw [completeTmp_lun h₂, hspec.tasks.lun]
  · rw [htrace, htrace₁]
    congr 1
    refine List.flatMap_congr fun a ha => ?_
    obtain ⟨p, hp, _⟩ := hlive a (hmem a (List.mem_of_mem_take ha))
    obtain ⟨q, hq, hpq⟩ := hspec.heap.get hp
    simp [World.completionEvents, hp, hq, hpq.callbackEvents]

/-- A PDU that is left is of the LUN it was of. -/
theorem ofLun_congr {w w' : World} {lun : UInt32} {a : Addr}
    (hrel : Option.Rel Pdu.Renumbered (w.pdus a) (w'.pdus a))
    (hlun : ∀ t, (w'.tasks t).lun = (w.tasks t).lun) : w'.ofLun lun a = w.ofLun lun a := by
  revert hrel
  unfold World.ofLun World.selects
  rcases w.pdus a with _ | p <;> rcases w'.pdus a with _ | q <;> intro hrel <;> cases hrel
  · rfl
  · rename_i h
    simp only [taskOfLun, h.scsiCbdata]
    split
    · rfl
    · rw [hlun]

/-- A LUN of which nothing waits for a response and at most one PDU is queued is cleared. -/
theorem lunCleared_of_le {w w' : World} {lun : UInt32} (hw : w.QueuesOk)
    (hwaits : ∀ a ∈ w.iscsi.waitpdu, w.ofLun lun a = false)
    (hle : (w.lunQueued lun).length ≤ 1)
    (hout : w'.iscsi.outqueue = w.iscsi.outqueue.filter fun a => !w.ofLun lun a)
    (hwait : w'.iscsi.waitpdu = w.iscsi.waitpdu)
    (hfreed : ∀ a ∈ (w.lunQueued lun).take 1, w'.pdus a = none)
    (hrel : ∀ a, a ∉ (w.lunQueued lun).take 1 →
      Option.Rel Pdu.Renumbered (w.pdus a) (w'.pdus a))
    (hlun : ∀ t, (w'.tasks t).lun = (w.tasks t).lun)
    (htrace : w'.trace = w.trace ++
      ((w.lunQueued lun).take 1).flatMap (w.completionEvents scsiStatusCancelled)) :
    LunCleared lun w w' := by
  rw [List.take_of_length_le hle] at hfreed hrel htrace
  have hnew : w.newEvents w' =
      (w.lunQueued lun).flatMap (w.completionEvents scsiStatusCancelled) := by
    rw [World.newEvents, htrace, List.drop_left]
  have hnd : (w.lunQueued lun).Nodup := (List.nodup_append.1 hw.nodup).1.filter _
  have hleft : ∀ a ∈ w'.iscsi.outqueue ++ w'.iscsi.waitpdu,
      w.ofLun lun a = false ∧ a ∉ w.lunQueued lun ∧ (w.pdus a).isSome := by
    intro a ha
    have h : a ∈ w.iscsi.outqueue ++ w.iscsi.waitpdu ∧ w.ofLun lun a = false := by
      rw [hout, hwait] at ha
      rcases List.mem_append.1 ha with ha | ha
      · obtain ⟨ha, hno⟩ := List.mem_filter.1 ha
        exact ⟨List.mem_append_left _ ha, by simpa using hno⟩
      · exact ⟨List.mem_append_right _ ha, hwaits a ha⟩
    obtain ⟨p, hp, _⟩ := hw.live a h.1
    exact ⟨h.2, fun hq => by simpa [h.2] using (List.mem_filter.1 hq).2, by simp [hp]⟩
  refine ⟨fun a ha => ?_, fun a ha p hp hof => ?_, hout, ?_, fun a ha => ?_⟩
  · obtain ⟨hno, hnq, _⟩ := hleft a ha
    rw [ofLun_congr (hrel a hnq) hlun, hno]
  · have hof' : w.ofLun lun a = true := by rw [World.ofLun, World.selects, hp]; exact hof
    have hmem : a ∈ w.lunQueued lun := by
      rcases List.mem_append.1 ha with ha | ha
      · exact List.mem_filter.2 ⟨ha, hof'⟩
      · rw [hwaits a ha] at hof'
        cases hof'
    refine ⟨hfreed a hmem, ?_, ?_⟩
    · rw [hnew, filter_flatMap_of_mem (fun b hb => (completionEvents_other _ hb).2) hnd hmem,
        completionEvents_free _ hp]
    · rw [hnew, filter_flatMap_of_mem (fun b hb => (completionEvents_other _ hb).1) hnd hmem,
        completionEvents_callback _ hp]
  · rw [hwait, eq_comm, List.filter_eq_self]
    exact fun a ha => by simp [hwaits a ha]
  · obtain ⟨_, hnq, hlive⟩ := hleft a ha
    refine ⟨?_, ?_⟩
    · obtain ⟨p, hp⟩ := Option.isSome_iff_exists.1 hlive
      have := hrel a hnq
      rw [hp] at this
      generalize w'.pdus a = x at this
      cases this
      rfl
    · rw [hnew, filter_flatMap_of_notMem (fun b hb => (completionEvents_other _ hb).1) hnq]

/-- **A LUN is cleared exactly when nothing of it waits for a response and at most one PDU of it is
queued.** -/
theorem iscsiCancelLunPdus_clears_iff {w : World} (lun : UInt32) (hw : w.QueuesOk) :
    (∃ w', iscsiCancelLunPdus w lun = .ok w' ∧ LunCleared lun w w') ↔
      (∀ a ∈ w.iscsi.waitpdu, w.ofLun lun a = false) ∧ (w.lunQueued lun).length ≤ 1 := by
  obtain ⟨w', h, hout, hwait, hfreed, hrel, hlun, htrace⟩ := iscsiCancelLunPdus_spec lun hw
  constructor
  · rintro ⟨w'', h', hc⟩
    obtain rfl := Except.ok.inj (h.symm.trans h')
    refine ⟨fun a ha => ?_, ?_⟩
    · -- `waitpdu` is not walked
      have hkept : a ∈ w'.iscsi.waitpdu := by rw [hwait]; exact ha
      rw [hc.waitpdu] at hkept
      simpa using (List.mem_filter.1 hkept).2
    · by_contra hl
      obtain ⟨a, ha, hna⟩ := exists_notMem_take_one
        ((List.nodup_append.1 hw.nodup).1.filter _) hl
      obtain ⟨hmem, hof⟩ := List.mem_filter.1 ha
      obtain ⟨p, hp, _⟩ := hw.live a (List.mem_append_left _ hmem)
      rw [World.ofLun, World.selects, hp] at hof
      have := hrel a hna
      rw [hp, (hc.completed a (List.mem_append_left _ hmem) p hp hof).1] at this
      cases this
  · rintro ⟨hwaits, hle⟩
    exact ⟨w', h, lunCleared_of_le hw hwaits hle hout hwait hfreed hrel hlun htrace⟩

/-! ## Two commands of a LUN -/

/-- A command of task 0. -/
def lunCommand : Pdu :=
  { outdata := iscsiPduScsiRequest :: List.replicate 47 0
    callback := some .scsiResponseCb
    scsiCbdata := { callback := some (.user 0), task := some 0 } }

/-- Commands of LUN 0 in `outqueue` and in `waitpdu`. -/
def lunQueues (queued waiting : List Addr) : World :=
  { iscsi := { outqueue := queued, waitpdu := waiting }
    pdus := fun a => if a ∈ queued ++ waiting then some lunCommand else none }

theorem lunQueues_ok {queued waiting : List Addr} (h : (queued ++ waiting).Nodup) :
    (lunQueues queued waiting).QueuesOk where
  nodup := h
  live a ha := ⟨lunCommand, if_pos ha, fun _ => rfl⟩
  current a ha := by simp [lunQueues] at ha

/-- One queued command of the LUN is cancelled. -/
theorem iscsiCancelLunPdus_clears_one :
    ∃ w', iscsiCancelLunPdus (lunQueues [1] []) 0 = .ok w' ∧ LunCleared 0 (lunQueues [1] []) w' :=
  (iscsiCancelLunPdus_clears_iff 0 (lunQueues_ok (by decide))).2 ⟨by decide, by decide⟩

/-- A command of the LUN that waits for its response is left waiting. -/
theorem iscsiCancelLunPdus_leaves_waiting :
    ¬∀ (w : World) (lun : UInt32), w.QueuesOk →
      ∃ w', iscsiCancelLunPdus w lun = .ok w' ∧ LunCleared lun w w' := by
  intro h
  obtain ⟨w', hw', hc⟩ := h (lunQueues [] [1]) 0 (lunQueues_ok (by decide))
  have hrun : (iscsiCancelLunPdus (lunQueues [] [1]) 0).toOption.map (fun w =>
      (w.iscsi.outqueue ++ w.iscsi.waitpdu, w.ofLun 0 1)) = some ([1], true) := by decide
  rw [hw'] at hrun
  obtain ⟨hlists, hof⟩ := Prod.mk.inj (Option.some.inj hrun)
  have := hc.gone 1 (by rw [hlists]; simp)
  simp [hof] at this

end Libiscsi
