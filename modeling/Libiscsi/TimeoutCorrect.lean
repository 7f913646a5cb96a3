import Libiscsi.CancelSpec

/-!
# Timeouts: what one scan completes

`iscsi_timeout_scan` unlinks the PDUs that are due and then completes them. Its second loops run
their body for one PDU only (`completeTmp`), and the scan of `waitpdu` asks
`iscsi_pdu_data_out_inprocess`, which takes the lock the scan holds. So the scan completes all
that it unlinks exactly when at most one PDU of each queue is due and no expired data-out command
is waiting in a build with POSIX spin locks (`iscsiTimeoutScan_complete_iff`);
`twoExpired_lost` is a queue of two expired commands of which the second is lost.
-/

namespace Libiscsi

namespace Event

/-- A call through the `callback` of the PDU. -/
def isCallbackOf (a : Addr) : Event → Bool
  | .callback b _ _ _ => b == a
  | _ => false

/-- The release of the PDU. -/
def isFreeOf (a : Addr) : Event → Bool
  | .free b => b == a
  | _ => false

end Event

/-- The events between two worlds of a run. -/
def World.newEvents (w w' : World) : List Event := w'.trace.drop w.trace.length

/-- What a scan should do. Every PDU that it unlinks had expired, is freed once, and its callback,
if it has one, was called once with `SCSI_STATUS_TIMEOUT`; what has not expired stays in its queue,
in order; and no callback of a PDU that stays was called. -/
structure ScanComplete (w w' : World) : Prop where
  unlinked : ∀ a ∈ w.iscsi.outqueue ++ w.iscsi.waitpdu,
    a ∉ w'.iscsi.outqueue ++ w'.iscsi.waitpdu →
      ∃ p, w.pdus a = some p ∧ p.expired w.now ∧ w'.pdus a = none ∧
        (w.newEvents w').filter (Event.isFreeOf a) = [.free a] ∧
        (w.newEvents w').filter (Event.isCallbackOf a) =
          (p.callback.map fun cb =>
            Event.callback a cb scsiStatusTimeout p.privateData).toList
  remaining : ∀ a ∈ w'.iscsi.outqueue ++ w'.iscsi.waitpdu,
    (w'.pdus a).isSome ∧ (w.newEvents w').filter (Event.isCallbackOf a) = []
  outqueue : w'.iscsi.outqueue.Sublist w.iscsi.outqueue
  waitpdu : w'.iscsi.waitpdu.Sublist w.iscsi.waitpdu
  unexpiredOut : ∀ a ∈ w.iscsi.outqueue, ∀ p, w.pdus a = some p → ¬p.expired w.now →
    a ∈ w'.iscsi.outqueue
  unexpiredWait : ∀ a ∈ w.iscsi.waitpdu, ∀ p, w.pdus a = some p → ¬p.expired w.now →
    a ∈ w'.iscsi.waitpdu

/-! ## What the scan does -/

namespace World

/-- The PDU at an address of `outqueue` is due: it has expired and is a command. -/
def outDue (w : World) : Addr → Bool := w.selects (timedOut w.now)

/-- `outqueue` without the PDUs that are due. -/
def outLeft (w : World) : List Addr := w.iscsi.outqueue.filter fun a => !w.outDue a

theorem mem_outLeft {w : World} {a : Addr} :
    a ∈ w.outLeft ↔ a ∈ w.iscsi.outqueue ∧ w.outDue a = false := by
  simp [outLeft]

/-- The PDUs a scan completes: the first that is due in each queue. -/
def scanned (w : World) : List Addr :=
  ((w.iscsi.outqueue.filter w.outDue).take 1) ++
    ((w.iscsi.waitpdu.filter (w.waitDue w.outLeft)).take 1)

/-- The events of the completion of the PDU at an address. -/
def completionEvents (w : World) (status : Status) (a : Addr) : List Event :=
  match w.pdus a with
  | some p => p.callbackEvents a status ++ [.free a]
  | none => []

end World

/-- What `completeTmp` does to a list whose first PDU is live. -/
theorem completeTmp_spec {w : World} {l : List Addr} (status : Status)
    (hlive : ∀ a ∈ l, ∃ p, w.pdus a = some p ∧ p.HasTask) :
    ∃ w', completeTmp w l status = .ok w' ∧
      w'.iscsi.outqueue = w.iscsi.outqueue ∧ w'.iscsi.waitpdu = w.iscsi.waitpdu ∧
      ((∀ a ∈ l, w.iscsi.outqueueCurrent ≠ some a) →
        w'.iscsi.outqueueCurrent = w.iscsi.outqueueCurrent) ∧
      (∀ a, a ∉ l.take 1 → w'.pdus a = w.pdus a) ∧ (∀ a ∈ l.take 1, w'.pdus a = none) ∧
      w'.trace = w.trace ++ (l.take 1).flatMap (w.completionEvents status) ∧
      w'.now = w.now ∧ w'.havePthread = w.havePthread := by
  cases l with
  | nil => exact ⟨w, rfl, rfl, rfl, fun _ => rfl, by simp, by simp, by simp, rfl, rfl⟩
  | cons a l =>
    obtain ⟨p, hp, ht⟩ := hlive a (by simp)
    refine ⟨_, completePdu_eq status hp ht, ?_, ?_, fun hcur => ?_, fun b hb => ?_,
      fun b hb => ?_, ?_, rfl, rfl⟩
    · simp [World.release, World.called]
    · simp [World.release, World.called]
    · simp [World.release, World.called, hcur a (by simp)]
    · have hba : b ≠ a := by simpa using hb
      simp [World.release, World.called, Function.update_of_ne hba]
    · have hba : b = a := by simpa using hb
      simp [World.release, hba]
    · simp [World.release, World.called, World.completionEvents, hp]

/-- The first half of the scan: `outqueue` without what was due, of which the first is completed,
and the PDUs that are left renumbered. -/
theorem timeoutOutqueue_spec {w : World} (hw : w.QueuesOk) :
    ∃ w₁ w₂, unlinkOutqueue (timedOut w.now) w.iscsi.outqueue 0 [] w =
        .ok (w.iscsi.outqueue.filter w.outDue, w₁) ∧
      completeTmp w₁ (w.iscsi.outqueue.filter w.outDue) scsiStatusTimeout = .ok w₂ ∧
      w₂.iscsi.outqueue = w.outLeft ∧ w₂.iscsi.waitpdu = w.iscsi.waitpdu ∧
      w₂.iscsi.outqueueCurrent = w.iscsi.outqueueCurrent ∧
      (∀ a, a ∉ (w.iscsi.outqueue.filter w.outDue).take 1 →
        Option.Rel Pdu.Renumbered (w.pdus a) (w₂.pdus a)) ∧
      (∀ a ∈ (w.iscsi.outqueue.filter w.outDue).take 1, w₂.pdus a = none) ∧
      (∀ a, a ∉ w.iscsi.outqueue → w₂.pdus a = w.pdus a) ∧
      w₂.trace = w.trace ++ ((w.iscsi.outqueue.filter w.outDue).take 1).flatMap
        (w.completionEvents scsiStatusTimeout) ∧
      w₂.now = w.now ∧ w₂.havePthread = w.havePthread := by
  obtain ⟨w₁, h₁, hspec⟩ := unlinkOutqueue_spec (timedOut_stable w.now) (i := []) (j := [])
    (n := 0) (w := w) rfl (List.nodup_append.1 hw.nodup).1 fun a ha => by
      obtain ⟨p, hp, _⟩ := hw.live a (List.mem_append_left _ ha)
      simp [hp]
  have hmem : ∀ a ∈ (w.iscsi.outqueue.filter w.outDue), a ∈ w.iscsi.outqueue := fun a ha =>
    (List.mem_filter.1 ha).1
  have htake : ∀ a ∈ (w.iscsi.outqueue.filter w.outDue).take 1, a ∈ w.iscsi.outqueue :=
    fun a ha => hmem a (List.mem_of_mem_take ha)
  have hlive₁ : ∀ a ∈ w.iscsi.outqueue.filter w.outDue,
      ∃ p, w₁.pdus a = some p ∧ p.HasTask := fun a ha => by
    obtain ⟨p, hp, ht⟩ := hw.live a (List.mem_append_left _ (hmem a ha))
    obtain ⟨q, hq, hpq⟩ := hspec.heap.get hp
    exact ⟨q, hq, hpq.hasTask.2 ht⟩
  obtain ⟨w₂, h₂, hout, hwait, hcur, hother, hfreed, htrace, hnow, hpt⟩ :=
    completeTmp_spec scsiStatusTimeout hlive₁
  have hiscsi₁ : w₁.iscsi = (w.iscsi.setOutqueue w.outLeft).setCmdsn
      (w.iscsi.cmdsn - w.gapOf (timedOut w.now) w.iscsi.outqueue) := by
    rw [hspec.frame]
    rfl
  have htrace₁ : w₁.trace = w.trace := by rw [hspec.frame]; rfl
  refine ⟨w₁, w₂, h₁, h₂, ?_, ?_, ?_, fun a ha => ?_, hfreed, fun a ha => ?_, ?_, ?_, ?_⟩
  · rw [hout, hiscsi₁]
    rfl
  · rw [hwait, hiscsi₁]
    rfl
  · rw [hcur fun a ha hca => ?_, hiscsi₁]
    · rfl
    · rw [hiscsi₁] at hca
      exact (hw.current a hca).1 (hmem a ha)
  · rw [hother a ha]
    exact hspec.heap a
  · rw [hother a fun h => ha (htake a h), hspec.outside a ha]
  · rw [htrace, htrace₁]
    congr 1
    refine List.flatMap_congr fun a ha => ?_
    obtain ⟨p, hp, _⟩ := hw.live a (List.mem_append_left _ (htake a ha))
    obtain ⟨q, hq, hpq⟩ := hspec.heap.get hp
    simp [World.completionEvents, hp, hq, hpq.callbackEvents]
  · rw [hnow, hspec.frame]
    rfl
  · rw [hpt, hspec.frame]
    rfl

/-- Whether a PDU of `waitpdu` is due is not changed by the first half of the scan. -/
theorem waitDue_congr {w w₂ : World} (hw : w.QueuesOk)
    (hcur : w₂.iscsi.outqueueCurrent = w.iscsi.outqueueCurrent)
    (hrel : ∀ a, a ∉ (w.iscsi.outqueue.filter w.outDue).take 1 →
      Option.Rel Pdu.Renumbered (w.pdus a) (w₂.pdus a))
    (hsame : ∀ a, a ∉ w.iscsi.outqueue → w₂.pdus a = w.pdus a) (hnow : w₂.now = w.now) {a : Addr}
    (ha : a ∈ w.iscsi.waitpdu) : w₂.waitDue w.outLeft a = w.waitDue w.outLeft a := by
  have hout : a ∉ w.iscsi.outqueue := fun h =>
    (List.nodup_append.1 hw.nodup).2.2 a h a ha rfl
  have hbusy : ∀ p, w₂.taskBusy w.outLeft p = w.taskBusy w.outLeft p := fun p => by
    unfold World.taskBusy
    rw [hcur]
    rw [Bool.eq_iff_iff, List.any_eq_true, List.any_eq_true]
    refine exists_congr fun b => and_congr_right fun hb => ?_
    have hb' : b ∉ (w.iscsi.outqueue.filter w.outDue).take 1 := fun h => by
      have hdue := List.mem_filter.1 (List.mem_of_mem_take h)
      rcases List.mem_append.1 hb with hb | hb
      · exact (hw.current b (Option.mem_toList.1 hb)).1 hdue.1
      · simp [World.outLeft, hdue.2] at hb
    have := hrel b hb'
    revert this
    rcases w.pdus b with _ | p <;> rcases w₂.pdus b with _ | q <;> intro this <;> cases this
    · rfl
    · rename_i h
      simp [h.scsiCbdata]
  simp only [World.waitDue, hsame a hout, hnow, hbusy]

/-- What a scan does that does not take the lock twice. -/
theorem iscsiTimeoutScan_spec {w : World} (hw : w.QueuesOk)
    (hlock : ∀ a ∈ w.iscsi.waitpdu, w.locksTwice a = false) :
    ∃ w', iscsiTimeoutScan w = .ok w' ∧ w'.iscsi.outqueue = w.outLeft ∧
      w'.iscsi.waitpdu = w.iscsi.waitpdu.filter (fun a => !w.waitDue w.outLeft a) ∧
      (∀ a ∈ w.scanned, w'.pdus a = none) ∧
      (∀ a, a ∉ w.scanned → Option.Rel Pdu.Renumbered (w.pdus a) (w'.pdus a)) ∧
      w'.trace = w.trace ++ w.scanned.flatMap (w.completionEvents scsiStatusTimeout) := by
  obtain ⟨w₁, w₂, h₁, h₂, hout, hwait, hcur, hrel, hfreed, hsame, htrace, hnow, hpt⟩ :=
    timeoutOutqueue_spec hw
  have hdisj : ∀ a ∈ w.iscsi.waitpdu, a ∉ w.iscsi.outqueue := fun a ha h =>
    (List.nodup_append.1 hw.nodup).2.2 a h a ha rfl
  have htmp₁ : ∀ a ∈ (w.iscsi.outqueue.filter w.outDue).take 1, a ∈ w.iscsi.outqueue :=
    fun a ha => (List.mem_filter.1 (List.mem_of_mem_take ha)).1
  have htmp₂ : ∀ a ∈ (w.iscsi.waitpdu.filter (w.waitDue w.outLeft)).take 1,
      a ∈ w.iscsi.waitpdu := fun a ha => (List.mem_filter.1 (List.mem_of_mem_take ha)).1
  have hleft : ∀ a ∈ w.iscsi.outqueueCurrent.toList ++ w.outLeft, (w₂.pdus a).isSome := by
    intro a ha
    have ha' : a ∉ (w.iscsi.outqueue.filter w.outDue).take 1 ∧ (w.pdus a).isSome := by
      rcases List.mem_append.1 ha with ha | ha
      · obtain ⟨hnot, hlive⟩ := hw.current a (Option.mem_toList.1 ha)
        exact ⟨fun h => hnot (htmp₁ a h), hlive⟩
      · obtain ⟨hmem, hdue⟩ := List.mem_filter.1 ha
        obtain ⟨p, hp, _⟩ := hw.live a (List.mem_append_left _ hmem)
        refine ⟨fun h => ?_, by simp [hp]⟩
        simp [(List.mem_filter.1 (List.mem_of_mem_take h)).2] at hdue
    have := hrel a ha'.1
    revert this
    obtain ⟨p, hp⟩ := Option.isSome_iff_exists.1 ha'.2
    rw [hp]
    rcases w₂.pdus a with _ | q <;> intro this
    · cases this
    · rfl
  have hdue : w₂.iscsi.waitpdu.filter (w₂.waitDue w₂.iscsi.outqueue) =
      w.iscsi.waitpdu.filter (w.waitDue w.outLeft) := by
    rw [hwait, hout]
    exact List.filter_congr fun a ha => waitDue_congr hw hcur hrel hsame hnow ha
  have hkept : (w₂.iscsi.waitpdu.filter fun a => !w₂.waitDue w₂.iscsi.outqueue a) =
      w.iscsi.waitpdu.filter fun a => !w.waitDue w.outLeft a := by
    rw [hwait, hout]
    exact List.filter_congr fun a ha => by rw [waitDue_congr hw hcur hrel hsame hnow ha]
  have h₃ := timeoutWaitpdu_eq (l := w₂.iscsi.waitpdu) (i := []) (j := []) (w := w₂) rfl
    (by rw [hwait]; exact (List.nodup_append.1 hw.nodup).2.1)
    (fun a ha => by
      rw [hwait] at ha
      obtain ⟨p, hp, _⟩ := hw.live a (List.mem_append_right _ ha)
      simp [hsame a (hdisj a ha), hp])
    (by rw [hcur, hout]; exact hleft)
    (fun a ha => by
      rw [hwait] at ha
      have := hlock a ha
      simpa [World.locksTwice, hsame a (hdisj a ha), hpt, hnow] using this)
  rw [hdue, hkept, hnow] at h₃
  obtain ⟨w', h₄, hout', hwait', _, hother, hfreed', htrace', _, _⟩ :=
    completeTmp_spec (w := w₂.modify (·.setWaitpdu
      (w.iscsi.waitpdu.filter fun a => !w.waitDue w.outLeft a)))
      (l := w.iscsi.waitpdu.filter (w.waitDue w.outLeft)) scsiStatusTimeout fun a ha => by
        have hm := (List.mem_filter.1 ha).1
        obtain ⟨p, hp, ht⟩ := hw.live a (List.mem_append_right _ hm)
        exact ⟨p, by rw [World.modify_pdus, hsame a (hdisj a hm), hp], ht⟩
  refine ⟨w', ?_, hout'.trans hout, hwait', fun a ha => ?_, fun a ha => ?_, ?_⟩
  · simp only [iscsiTimeoutScan, h₁, Outcome.ok_bind, h₂, h₃, List.nil_append]
    exact h₄
  · rcases List.mem_append.1 ha with ha | ha
    · rw [hother a fun h => hdisj a (htmp₂ a h) (htmp₁ a ha)]
      exact hfreed a ha
    · exact hfreed' a ha
  · obtain ⟨h₁, h₂⟩ := not_or.1 (mt List.mem_append.2 ha)
    rw [hother a h₂]
    exact hrel a h₁
  · rw [htrace', World.modify_trace, htrace, World.scanned, List.flatMap_append,
      List.append_assoc]
    congr 2
    refine List.flatMap_congr fun a ha => ?_
    simp only [World.completionEvents, World.modify_pdus, hsame a (hdisj a (htmp₂ a ha))]

/-- A scan that returns did not take the lock twice. -/
theorem iscsiTimeoutScan_locksTwice {w w' : World} (hw : w.QueuesOk)
    (h : iscsiTimeoutScan w = .ok w') : ∀ a ∈ w.iscsi.waitpdu, w.locksTwice a = false := by
  obtain ⟨w₁, w₂, h₁, h₂, _, hwait, _, _, _, hsame, _, hnow, hpt⟩ := timeoutOutqueue_spec hw
  simp only [iscsiTimeoutScan, h₁, Outcome.ok_bind, h₂] at h
  rw [← hnow] at h
  obtain ⟨⟨tmp, w₃⟩, h₃, _⟩ := Outcome.bind_eq_ok.1 h
  intro a ha
  have := timeoutWaitpdu_deadlock h₃ a (by rw [hwait]; exact ha)
  have hout : a ∉ w.iscsi.outqueue := fun h => (List.nodup_append.1 hw.nodup).2.2 a h a ha rfl
  simpa [World.locksTwice, hsame a hout, hpt, hnow] using this

/-! ## Counting events -/

/-- Of the events of the elements of a list, those about an element that is in the list once. -/
theorem filter_flatMap_of_mem {f : Addr → List Event} {P : Event → Bool} {a : Addr}
    (hf : ∀ b, b ≠ a → (f b).filter P = []) :
    ∀ {l : List Addr}, l.Nodup → a ∈ l → (l.flatMap f).filter P = (f a).filter P
  | b :: l, hnd, ha => by
    rw [List.flatMap_cons, List.filter_append]
    obtain ⟨hb, hnd⟩ := List.nodup_cons.1 hnd
    have hnil : ∀ {l' : List Addr}, a ∉ l' → (l'.flatMap f).filter P = [] := fun h => by
      rw [List.filter_flatMap, List.flatMap_eq_nil_iff]
      exact fun c hc => hf c (by rintro rfl; exact h hc)
    by_cases hba : b = a
    · subst hba
      rw [hnil hb, List.append_nil]
    · rw [hf b hba, List.nil_append,
        filter_flatMap_of_mem hf hnd ((List.mem_cons.1 ha).resolve_left (Ne.symm hba))]

/-- Of the events of the elements of a list, those about an element that is not in the list. -/
theorem filter_flatMap_of_notMem {f : Addr → List Event} {P : Event → Bool} {a : Addr}
    (hf : ∀ b, b ≠ a → (f b).filter P = []) {l : List Addr} (ha : a ∉ l) :
    (l.flatMap f).filter P = [] := by
  rw [List.filter_flatMap, List.flatMap_eq_nil_iff]
  exact fun c hc => hf c (by rintro rfl; exact ha hc)

/-- The completion of a PDU calls its callback once. -/
theorem completionEvents_callback {w : World} {a : Addr} {p : Pdu} (status : Status)
    (hp : w.pdus a = some p) :
    (w.completionEvents status a).filter (Event.isCallbackOf a) =
      (p.callback.map fun cb => Event.callback a cb status p.privateData).toList := by
  simp only [World.completionEvents, hp, Pdu.callbackEvents]
  rcases p.callback with _ | cb
  · simp [Event.isCallbackOf]
  · rcases p.scsiCbdata.callback with _ | cb' <;> rcases p.scsiCbdata.task with _ | t <;>
      cases cb <;> simp [Event.isCallbackOf]

/-- The completion of a PDU frees it once. -/
theorem completionEvents_free {w : World} {a : Addr} {p : Pdu} (status : Status)
    (hp : w.pdus a = some p) :
    (w.completionEvents status a).filter (Event.isFreeOf a) = [.free a] := by
  simp only [World.completionEvents, hp, Pdu.callbackEvents]
  rcases p.callback with _ | cb
  · simp [Event.isFreeOf]
  · rcases p.scsiCbdata.callback with _ | cb' <;> rcases p.scsiCbdata.task with _ | t <;>
      cases cb <;> simp [Event.isFreeOf]

/-- The completion of another PDU is no event of a PDU. -/
theorem completionEvents_other {w : World} {a b : Addr} (status : Status) (hab : b ≠ a) :
    (w.completionEvents status b).filter (Event.isCallbackOf a) = [] ∧
      (w.completionEvents status b).filter (Event.isFreeOf a) = [] := by
  unfold World.completionEvents
  rcases w.pdus b with _ | p
  · exact ⟨rfl, rfl⟩
  simp only [Pdu.callbackEvents]
  rcases p.callback with _ | cb
  · simp [Event.isCallbackOf, Event.isFreeOf, hab]
  · rcases p.scsiCbdata.callback with _ | cb' <;> rcases p.scsiCbdata.task with _ | t <;>
      cases cb <;> simp [Event.isCallbackOf, Event.isFreeOf, hab]

/-! ## What the scan completes -/

/-- A PDU of a list of which at most one is due is the one that is completed. -/
theorem mem_take_one_of_length_le {l : List Addr} {a : Addr} (hl : l.length ≤ 1) (ha : a ∈ l) :
    a ∈ l.take 1 := by
  rwa [List.take_of_length_le hl]

/-- Of a list of which more than one is due some PDU is not completed. -/
theorem exists_notMem_take_one {l : List Addr} (hnd : l.Nodup) (hl : ¬l.length ≤ 1) :
    ∃ a ∈ l, a ∉ l.take 1 := by
  match l, hl with
  | [], hl => simp at hl
  | [a], hl => simp at hl
  | a :: b :: l, _ =>
    refine ⟨b, by simp, ?_⟩
    have := (List.nodup_cons.1 hnd).1
    simpa using fun h : b = a => this (by simp [h])

/-- A scan of which at most one PDU of each queue is due completes what it unlinks. -/
theorem scanComplete_of_le {w w' : World} (hw : w.QueuesOk)
    (hout : (w.iscsi.outqueue.filter w.outDue).length ≤ 1)
    (hwait : (w.iscsi.waitpdu.filter (w.waitDue w.outLeft)).length ≤ 1)
    (h₁ : w'.iscsi.outqueue = w.outLeft)
    (h₂ : w'.iscsi.waitpdu = w.iscsi.waitpdu.filter fun a => !w.waitDue w.outLeft a)
    (hfreed : ∀ a ∈ w.scanned, w'.pdus a = none)
    (hrel : ∀ a, a ∉ w.scanned → Option.Rel Pdu.Renumbered (w.pdus a) (w'.pdus a))
    (htrace : w'.trace = w.trace ++ w.scanned.flatMap (w.completionEvents scsiStatusTimeout)) :
    ScanComplete w w' := by
  have hnew : w.newEvents w' = w.scanned.flatMap (w.completionEvents scsiStatusTimeout) := by
    rw [World.newEvents, htrace, List.drop_left]
  have hscanned : ∀ a, a ∈ w.scanned ↔ (a ∈ w.iscsi.outqueue ∧ w.outDue a) ∨
      (a ∈ w.iscsi.waitpdu ∧ w.waitDue w.outLeft a) := fun a => by
    rw [World.scanned, List.take_of_length_le hout, List.take_of_length_le hwait,
      List.mem_append, List.mem_filter, List.mem_filter]
  have hnd : w.scanned.Nodup := by
    rw [World.scanned, List.take_of_length_le hout, List.take_of_length_le hwait]
    exact hw.nodup.sublist (List.Sublist.append List.filter_sublist List.filter_sublist)
  have hdisj : ∀ a ∈ w.iscsi.outqueue, a ∉ w.iscsi.waitpdu := fun a h h' =>
    (List.nodup_append.1 hw.nodup).2.2 a h a h' rfl
  have hcb : ∀ a b, b ≠ a →
      (w.completionEvents scsiStatusTimeout b).filter (Event.isCallbackOf a) = [] :=
    fun a b hb => (completionEvents_other _ hb).1
  refine ⟨fun a ha hna => ?_, fun a ha => ?_, ?_, ?_, fun a ha p hp hexp => ?_,
    fun a ha p hp hexp => ?_⟩
  · have hmem : a ∈ w.scanned := by
      rw [h₁, h₂, List.mem_append, not_or, World.mem_outLeft, List.mem_filter] at hna
      rw [hscanned]
      rcases List.mem_append.1 ha with ha | ha
      · exact .inl ⟨ha, by simpa [ha] using hna.1⟩
      · exact .inr ⟨ha, by simpa [ha] using hna.2⟩
    obtain ⟨p, hp, _⟩ := hw.live a ha
    refine ⟨p, hp, ?_, hfreed a hmem, ?_, ?_⟩
    · rcases (hscanned a).1 hmem with ⟨_, hdue⟩ | ⟨_, hdue⟩
      · rw [World.outDue, World.selects, hp] at hdue
        exact (Bool.and_eq_true_iff.1 hdue).1
      · rw [World.waitDue, hp] at hdue
        exact (Bool.and_eq_true_iff.1 hdue).1
    · rw [hnew, filter_flatMap_of_mem (fun b hb => (completionEvents_other _ hb).2) hnd hmem,
        completionEvents_free _ hp]
    · rw [hnew, filter_flatMap_of_mem (hcb a) hnd hmem, completionEvents_callback _ hp]
  · have hmem : a ∈ w.iscsi.outqueue ++ w.iscsi.waitpdu ∧ a ∉ w.scanned := by
      rw [h₁, h₂] at ha
      rcases List.mem_append.1 ha with ha | ha
      · obtain ⟨ha, hdue⟩ := List.mem_filter.1 ha
        refine ⟨List.mem_append_left _ ha, fun h => ?_⟩
        rcases (hscanned a).1 h with ⟨_, h⟩ | ⟨h, _⟩
        · simp [h] at hdue
        · exact hdisj a ha h
      · obtain ⟨ha, hdue⟩ := List.mem_filter.1 ha
        refine ⟨List.mem_append_right _ ha, fun h => ?_⟩
        rcases (hscanned a).1 h with ⟨h, _⟩ | ⟨_, h⟩
        · exact hdisj a h ha
        · simp [h] at hdue
    refine ⟨?_, by rw [hnew, filter_flatMap_of_notMem (hcb a) hmem.2]⟩
    obtain ⟨p, hp, _⟩ := hw.live a hmem.1
    have := hrel a hmem.2
    rw [hp] at this
    generalize w'.pdus a = x at this
    cases this
    rfl
  · rw [h₁]
    exact List.filter_sublist
  · rw [h₂]
    exact List.filter_sublist
  · rw [h₁, World.outLeft, List.mem_filter]
    refine ⟨ha, ?_⟩
    simp [World.outDue, World.selects, hp, timedOut, hexp]
  · rw [h₂, List.mem_filter]
    refine ⟨ha, ?_⟩
    simp [World.waitDue, hp, hexp]

/-- **A scan completes what it unlinks exactly when at most one PDU of each queue is due.** It
returns and completes every PDU that it unlinks if and only if at most one command of `outqueue`
has expired, at most one PDU of `waitpdu` has expired that is not kept by PDUs of its task, and no
expired data-out command is waiting in a build in which the locks are POSIX spin locks. -/
theorem iscsiTimeoutScan_complete_iff {w : World} (hw : w.QueuesOk) :
    (∃ w', iscsiTimeoutScan w = .ok w' ∧ ScanComplete w w') ↔
      (w.iscsi.outqueue.filter w.outDue).length ≤ 1 ∧
        (w.iscsi.waitpdu.filter (w.waitDue w.outLeft)).length ≤ 1 ∧
        ∀ a ∈ w.iscsi.waitpdu, w.locksTwice a = false := by
  have hdisj : ∀ a ∈ w.iscsi.outqueue, a ∉ w.iscsi.waitpdu := fun a h h' =>
    (List.nodup_append.1 hw.nodup).2.2 a h a h' rfl
  constructor
  · rintro ⟨w', h, hc⟩
    have hlock := iscsiTimeoutScan_locksTwice hw h
    obtain ⟨w'', h', h₁, h₂, _, hrel, _⟩ := iscsiTimeoutScan_spec hw hlock
    obtain rfl : w'' = w' := Except.ok.inj (h'.symm.trans h)
    -- a PDU that was unlinked and is not the first of its queue was not freed
    have hlost : ∀ a ∈ w.iscsi.outqueue ++ w.iscsi.waitpdu,
        a ∉ w''.iscsi.outqueue ++ w''.iscsi.waitpdu → a ∈ w.scanned := fun a ha hna => by
      by_contra hns
      obtain ⟨p, hp, _, hfreed, _⟩ := hc.unlinked a ha hna
      have := hrel a hns
      rw [hp, hfreed] at this
      cases this
    refine ⟨?_, ?_, hlock⟩
    · by_contra hl
      obtain ⟨a, ha, hna⟩ := exists_notMem_take_one
        ((List.nodup_append.1 hw.nodup).1.filter _) hl
      obtain ⟨hmem, hdue⟩ := List.mem_filter.1 ha
      have hgone : a ∉ w''.iscsi.outqueue ++ w''.iscsi.waitpdu := by
        rw [h₁, h₂, List.mem_append, World.mem_outLeft, List.mem_filter]
        rintro (⟨_, h⟩ | ⟨h, _⟩)
        · simp [hdue] at h
        · exact hdisj a hmem h
      rcases List.mem_append.1 (hlost a (List.mem_append_left _ hmem) hgone) with h | h
      · exact hna h
      · exact hdisj a hmem (List.mem_filter.1 (List.mem_of_mem_take h)).1
    · by_contra hl
      obtain ⟨a, ha, hna⟩ := exists_notMem_take_one
        ((List.nodup_append.1 hw.nodup).2.1.filter _) hl
      obtain ⟨hmem, hdue⟩ := List.mem_filter.1 ha
      have hgone : a ∉ w''.iscsi.outqueue ++ w''.iscsi.waitpdu := by
        rw [h₁, h₂, List.mem_append, World.mem_outLeft, List.mem_filter]
        rintro (⟨h, _⟩ | ⟨_, h⟩)
        · exact hdisj a h hmem
        · simp [hdue] at h
      rcases List.mem_append.1 (hlost a (List.mem_append_right _ hmem) hgone) with h | h
      · exact hdisj a (List.mem_filter.1 (List.mem_of_mem_take h)).1 hmem
      · exact hna h
  · rintro ⟨hout, hwait, hlock⟩
    obtain ⟨w', h, h₁, h₂, hfreed, hrel, htrace⟩ := iscsiTimeoutScan_spec hw hlock
    exact ⟨w', h, scanComplete_of_le hw hout hwait h₁ h₂ hfreed hrel htrace⟩

/-! ## Two commands that expire in the same scan -/

/-- A command that expires at time 5. -/
def expiringCommand : Pdu :=
  { outdata := iscsiPduScsiRequest :: List.replicate 47 0
    scsiTimeout := 5
    callback := some (.user 0) }

/-- `n` such commands in `outqueue`, at time 9. -/
def expiredQueue (n : Nat) : World :=
  { iscsi := { outqueue := List.range n }
    pdus := fun a => if a < n then some expiringCommand else none
    now := 9 }

theorem expiredQueue_ok (n : Nat) : (expiredQueue n).QueuesOk where
  nodup := by simpa [expiredQueue] using List.nodup_range
  live a ha := by
    have : a < n := by simpa [expiredQueue] using ha
    exact ⟨expiringCommand, by simp [expiredQueue, this], by simp [Pdu.HasTask, expiringCommand]⟩
  current a ha := by simp [expiredQueue] at ha

/-- One command that expires is completed. -/
theorem iscsiTimeoutScan_complete_one :
    ∃ w', iscsiTimeoutScan (expiredQueue 1) = .ok w' ∧ ScanComplete (expiredQueue 1) w' :=
  (iscsiTimeoutScan_complete_iff (expiredQueue_ok 1)).2
    ⟨by decide, by decide, by simp [expiredQueue]⟩

/-- Of two commands that expire in one scan the second is unlinked and neither completed nor
freed. -/
theorem iscsiTimeoutScan_loses_second :
    ¬∀ w : World, w.QueuesOk → ∃ w', iscsiTimeoutScan w = .ok w' ∧ ScanComplete w w' := by
  intro h
  obtain ⟨w', hw', hc⟩ := h (expiredQueue 2) (expiredQueue_ok 2)
  have hrun : (iscsiTimeoutScan (expiredQueue 2)).toOption.map (fun w =>
      (w.iscsi.outqueue ++ w.iscsi.waitpdu, (w.pdus 1).isSome)) = some ([], true) := by decide
  rw [hw'] at hrun
  obtain ⟨hlists, hlive⟩ := Prod.mk.inj (Option.some.inj hrun)
  obtain ⟨_, _, _, hfreed, _⟩ := hc.unlinked 1 (by decide) (by rw [hlists]; simp)
  rw [hfreed] at hlive
  cases hlive

end Libiscsi
