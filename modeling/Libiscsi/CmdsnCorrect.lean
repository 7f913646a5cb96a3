import Libiscsi.CmdsnSubmit

/-!
# CmdSNs are contiguous on a connection

In a session the commands that are taken for transmission have consecutive CmdSNs, and the
commands in `outqueue` carry the ones that follow, up to the one before `iscsi->cmdsn`
(`CmdsnContiguous`). Two paths break this. `iscsi_scsi_cancel_task` gives the CmdSN of the command
it takes out of `outqueue` back without renumbering the commands behind it, and
`iscsi_send_data_out` unlinks a command, when it cannot allocate a DATA-OUT, without giving its
CmdSN back. In runs whose steps do not meet these cases the CmdSNs are contiguous
(`cmdsn_contiguous`).
-/

namespace Libiscsi

open Numbering

/-! ## Cancellation -/

section
variable {base : UInt32} {w w' : World} {a : Addr}

/-- **`iscsi_cancel_lun_pdus` keeps the invariant.** -/
theorem CmdsnInv.cancelLun {lun : UInt32} (hi : CmdsnInv base none w)
    (h : iscsiCancelLunPdus w lun = .ok w') : Advances base none w w' := by
  unfold iscsiCancelLunPdus at h
  obtain ⟨⟨tmp, w₁⟩, h₁, h₂⟩ := Outcome.bind_eq_ok.1 h
  obtain ⟨w₁', h₁', hspec⟩ := unlinkOutqueue_spec (taskOfLun_stable lun) (i := []) (j := [])
    (n := 0) (w := w) rfl (List.nodup_append.1 hi.nodup).1 fun a ha => by
      obtain ⟨p, hp, _⟩ := hi.sendable a ha
      simp [hp]
  obtain ⟨rfl, rfl⟩ := Prod.mk.inj (Except.ok.inj (h₁'.symm.trans h₁))
  have hi₁ := hi.unlink hspec fun a ha => by simp at ha
  have ht₁ : w₁'.trace = w.trace := by rw [hspec.frame]; rfl
  have hout₁ : w₁'.iscsi.outqueue =
      w.iscsi.outqueue.filter fun a => !w.selects (taskOfLun lun) a := by rw [hspec.iscsi]; rfl
  obtain ⟨hq₂, hn₂⟩ := quiet_completeTmp (fun a ha hm => by
    rw [hout₁, List.mem_filter] at hm
    simp at ha
    simp [ha.2] at hm) h₂
  exact .of_inv (by rw [hq₂.taken, ht₁]) (hi₁.quiet hq₂ hn₂)

/-- A PDU of `waitpdu` is unlinked and completed. -/
theorem CmdsnInv.complete {status : Status} (hi : CmdsnInv base none w)
    (ha : a ∈ w.iscsi.waitpdu)
    (h : completePdu (w.modify (·.setWaitpdu (w.iscsi.waitpdu.erase a))) a status = .ok w') :
    Advances base none w w' := by
  have hq₁ := quiet_setWaitpdu (w := w) (List.erase_sublist (a := a) (l := w.iscsi.waitpdu))
  have hout : a ∉ w.iscsi.outqueue := fun hm =>
    (List.nodup_append.1 hi.nodup).2.2 a hm a ha rfl
  obtain ⟨hq₂, _⟩ := quiet_completePdu (by rw [hq₁.outqueue]; exact hout) h
  have hq := hq₁.trans hq₂
  exact .of_inv hq.taken (hi.quiet_none hq)

/-- The scan that selects the PDUs with a task tag. -/
def hasItt (itt : UInt32) (_ : World) (pdu : Pdu) : Bool := pdu.itt == itt

/-- The PDU with the tag that is found in a list. -/
theorem findItt_spec {itt : UInt32} : ∀ {l : List Addr} {r : Option Addr},
    findItt w itt l = .ok r →
      (∀ a, r = some a → a ∈ l) ∧ (r = none → ∀ a ∈ l, w.selects (hasItt itt) a = false)
  | [], r, h => by
    obtain rfl := Except.ok.inj h
    simp
  | b :: l, r, h => by
    unfold findItt at h
    obtain ⟨p, hp, h⟩ := Outcome.bind_eq_ok.1 h
    rw [World.deref_eq_ok] at hp
    split at h
    · obtain rfl := Except.ok.inj h
      simp
    · rename_i hne
      obtain ⟨hsome, hnone⟩ := findItt_spec h
      refine ⟨fun a ha => List.mem_cons_of_mem _ (hsome a ha), fun hr => ?_⟩
      rw [List.forall_mem_cons]
      exact ⟨by simpa [World.selects, hp, hasItt] using hne, hnone hr⟩

/-- The loop over `outqueue` of `iscsi_scsi_cancel_task` takes the PDUs with the tag out. -/
theorem unlinkItt_eq {itt : UInt32} : ∀ {l i tmp tmp' : List Addr} {w w' : World},
    w.iscsi.outqueue = i ++ l → (i ++ l).Nodup →
    unlinkItt itt l tmp w = .ok (tmp', w') →
    tmp' = tmp ++ l.filter (w.selects (hasItt itt)) ∧
      w' = w.modify (·.setOutqueue (i ++ l.filter fun a => !w.selects (hasItt itt) a))
  | [], pre, tmp, tmp', w, w', hq, _, h => by
    obtain ⟨rfl, rfl⟩ := Prod.mk.inj (Except.ok.inj h)
    have hself : w.modify (·.setOutqueue pre) = w := by
      rw [← List.append_nil pre, ← hq]
      rfl
    simp [hself]
  | b :: l, pre, tmp, tmp', w, w', hq, hnd, h => by
    have hbpre : b ∉ pre := fun hm => (List.nodup_append.1 hnd).2.2 b hm b (by simp) rfl
    unfold unlinkItt at h
    obtain ⟨p, hp, h⟩ := Outcome.bind_eq_ok.1 h
    rw [World.deref_eq_ok] at hp
    have hsel : w.selects (hasItt itt) b = (p.itt == itt) := by simp [World.selects, hp, hasItt]
    split at h
    · rename_i heq
      obtain ⟨outqueue, hrem, h⟩ := Outcome.bind_eq_ok.1 h
      have hout : outqueue = pre ++ l := by
        rw [(listRemove_eq_ok.1 hrem).2, hq, List.erase_append_right _ hbpre,
          List.erase_cons_head]
      subst hout
      obtain ⟨h₁, h₂⟩ := unlinkItt_eq (i := pre) rfl
        (List.nodup_cons.1 (List.nodup_middle.1 hnd)).2 h
      have hs : (w.modify (·.setOutqueue (pre ++ l))).selects (hasItt itt) =
          w.selects (hasItt itt) := rfl
      rw [hs] at h₁ h₂
      have hb : w.selects (hasItt itt) b = true := by simp [hsel, heq]
      refine ⟨by rw [h₁, List.filter_cons_of_pos hb]; simp, ?_⟩
      rw [h₂, List.filter_cons_of_neg (by simp [hb])]
      rfl
    · rename_i hne
      obtain ⟨h₁, h₂⟩ := unlinkItt_eq (i := pre ++ [b]) (by rw [hq]; simp) (by simpa using hnd) h
      have hb : w.selects (hasItt itt) b = false := by simpa [hsel] using hne
      refine ⟨by rw [h₁, List.filter_cons_of_neg (by simp [hb])], ?_⟩
      rw [h₂, List.filter_cons_of_pos (by simp [hb])]
      simp

/-- The condition under which `iscsi_scsi_cancel_task` leaves no gap: the PDU with the tag waits
for a response; or no command in `outqueue` has the tag; or the first PDU of `outqueue` with the
tag is a command, and all that stands behind it are other PDUs with the tag that are no
commands. -/
def CancelKeepsOrder (w : World) (itt : UInt32) : Prop :=
  (∃ a ∈ w.iscsi.waitpdu, w.selects (hasItt itt) a = true) ∨
    (∀ a ∈ w.iscsi.outqueue, w.selects (hasItt itt) a = true → w.isCommandAt a = false) ∨
    ∃ l₁ a l₂, w.iscsi.outqueue = l₁ ++ a :: l₂ ∧ w.selects (hasItt itt) a = true ∧
      w.isCommandAt a = true ∧ (∀ b ∈ l₁, w.selects (hasItt itt) b = false) ∧
      ∀ b ∈ l₂, w.selects (hasItt itt) b = true ∧ w.isCommandAt b = false

/-- A scan without renumbering is one that takes nothing out before what stays. -/
theorem unlinkSpec_modify {sel : World → Pdu → Bool} {g : UInt32}
    (hg : g = w.gapOf sel w.iscsi.outqueue)
    (hbefore : ∀ l₁ a l₂, w.iscsi.outqueue = l₁ ++ a :: l₂ → w.selects sel a = false →
      w.gapOf sel l₁ = 0) :
    UnlinkSpec sel [] w.iscsi.outqueue 0 w
      ((w.modify (·.setOutqueue (w.iscsi.outqueue.filter fun a =>
        !w.selects sel a))).modify (·.setCmdsn (w.iscsi.cmdsn - g))) where
  frame := by rw [hg]; rfl
  heap := .refl _
  tasks := .refl _
  outside _ _ := rfl
  cmdsn l₁ a l₂ p hl hsel hp := ⟨p, hp, by rw [hbefore l₁ a l₂ hl hsel]; simp⟩

/-- A completion commutes with a change of the CmdSN of the context. -/
theorem called_setCmdsn (w : World) (a : Addr) (p : Pdu) (status : Status) (n : UInt32) :
    (w.called a p status).modify (·.setCmdsn n) =
      (w.modify (·.setCmdsn n)).called a p status := by
  unfold World.called Pdu.callbackContext
  split <;> rfl

/-- The PDUs that were unlinked, of which the first is completed and gives its CmdSN back. -/
theorem cancelTmp_cases {tmp : List Addr} {r : Int} (h : cancelTmp w tmp = .ok (r, w')) :
    tmp = [] ∧ w' = w ∨ ∃ b rest p, tmp = b :: rest ∧ w.pdus b = some p ∧
      w' = ((w.modify (·.setCmdsn (w.iscsi.cmdsn - if p.isCommand then 1 else 0))).called b p
        scsiStatusCancelled).release b := by
  cases tmp with
  | nil =>
    obtain ⟨_, rfl⟩ := Prod.mk.inj (Except.ok.inj h)
    exact .inl ⟨rfl, rfl⟩
  | cons b rest =>
    unfold cancelTmp at h
    obtain ⟨w₁, h₁, h⟩ := Outcome.bind_eq_ok.1 h
    obtain ⟨p, hp, rfl⟩ := invokeCallback_called h₁
    have hp' : (w.called b p scsiStatusCancelled).deref b = .ok p := World.deref_eq_ok.2 hp
    rw [hp', Outcome.ok_bind] at h
    obtain ⟨w₂, h₂, h⟩ := Outcome.bind_eq_ok.1 h
    obtain ⟨_, rfl⟩ := Prod.mk.inj (Except.ok.inj h)
    obtain ⟨_, rfl⟩ := iscsiFreePdu_eq_ok.1 h₂
    refine .inr ⟨b, rest, p, rfl, hp, ?_⟩
    congr 1
    rw [← called_setCmdsn]
    have hsn : (w.called b p scsiStatusCancelled).iscsi.cmdsn = w.iscsi.cmdsn := by
      simp [World.called]
    cases p.isCommand with
    | true => simp only [if_true, World.modify, hsn]
    | false =>
      simp only [Bool.false_eq_true, if_false, UInt32.sub_zero, World.modify, ← hsn,
        Context.setCmdsn_self]

/-- The first PDU that a scan takes out is not in the queue any more. -/
theorem not_mem_kept {sel : Addr → Bool} {l rest : List Addr} {b : Addr}
    (hb : l.filter sel = b :: rest) : b ∉ l.filter fun a => !sel a := by
  have hsel := (List.mem_filter.1 (hb ▸ List.mem_cons_self : b ∈ l.filter sel)).2
  simp [hsel]

/-- No command is taken out of a list. -/
theorem gapOf_eq_zero {sel : World → Pdu → Bool} {l : List Addr}
    (h : ∀ b ∈ l, w.selects sel b = true → w.isCommandAt b = false) : w.gapOf sel l = 0 := by
  have hnone : (l.countP fun a => w.selects sel a && w.isCommandAt a) = 0 := by
    rw [List.countP_eq_zero]
    intro b hb hc
    obtain ⟨hsel, hcmd⟩ := Bool.and_eq_true_iff.1 hc
    rw [h b hb hsel] at hcmd
    cases hcmd
  rw [World.gapOf, hnone]
  rfl

/-- One command is taken out of a list. -/
theorem gapOf_eq_one {sel : World → Pdu → Bool} {l₁ l₂ : List Addr} (hsel : w.selects sel a = true)
    (hcmd : w.isCommandAt a = true) (h₁ : ∀ b ∈ l₁, w.selects sel b = false)
    (h₂ : ∀ b ∈ l₂, w.isCommandAt b = false) : w.gapOf sel (l₁ ++ a :: l₂) = 1 := by
  have hone : ((l₁ ++ a :: l₂).countP fun a => w.selects sel a && w.isCommandAt a) = 1 := by
    rw [List.countP_append, List.countP_cons_of_pos (by simp [hsel, hcmd]),
      List.countP_eq_zero.2 fun b hb => by simp [h₁ b hb],
      List.countP_eq_zero.2 fun b hb => by simp [h₂ b hb]]
  rw [World.gapOf, hone]
  rfl

/-- **`iscsi_scsi_cancel_task` keeps the invariant** where no command stands behind the one it
takes out. -/
theorem CmdsnInv.cancelTask {t : TaskPtr} {r : Int} (hi : CmdsnInv base none w)
    (hgood : CancelKeepsOrder w (w.tasks t).itt)
    (h : iscsiScsiCancelTask w t = .ok (r, w')) : Advances base none w w' := by
  unfold iscsiScsiCancelTask at h
  rw [hi.olds] at h
  unfold cancelTaskFrom at h
  obtain ⟨⟨done, ret, w₁⟩, hhere, h⟩ := Outcome.bind_eq_ok.1 h
  obtain ⟨_, rfl⟩ := Prod.mk.inj (Except.ok.inj h)
  unfold cancelTaskHere at hhere
  set itt := (w.tasks t).itt
  obtain ⟨found, hfind, hhere⟩ := Outcome.bind_eq_ok.1 hhere
  obtain ⟨hsome, hnone⟩ := findItt_spec hfind
  cases found with
  | some a =>
    obtain ⟨waitpdu, hrem, hhere⟩ := Outcome.bind_eq_ok.1 hhere
    obtain ⟨w₂, hcomp, hhere⟩ := Outcome.bind_eq_ok.1 hhere
    obtain ⟨_, hhere⟩ := Prod.mk.inj (Except.ok.inj hhere)
    obtain ⟨_, rfl⟩ := Prod.mk.inj hhere
    rw [(listRemove_eq_ok.1 hrem).2] at hcomp
    exact hi.complete (hsome a rfl) hcomp
  | none =>
    obtain ⟨⟨tmp, w₂⟩, hunlink, hhere⟩ := Outcome.bind_eq_ok.1 hhere
    obtain ⟨⟨ret', w₃⟩, hcancel, hhere⟩ := Outcome.bind_eq_ok.1 hhere
    obtain ⟨_, hhere⟩ := Prod.mk.inj (Except.ok.inj hhere)
    obtain ⟨_, rfl⟩ := Prod.mk.inj hhere
    obtain ⟨rfl, rfl⟩ := unlinkItt_eq (i := []) rfl (List.nodup_append.1 hi.nodup).1 hunlink
    simp only [List.nil_append] at hcancel
    set kept := w.iscsi.outqueue.filter fun a => !w.selects (hasItt itt) a
    -- the scan as one that renumbers, with the CmdSN that is given back
    have hdone : ∀ g : UInt32, g = w.gapOf (hasItt itt) w.iscsi.outqueue →
        (∀ l₁ a l₂, w.iscsi.outqueue = l₁ ++ a :: l₂ → w.selects (hasItt itt) a = false →
          w.gapOf (hasItt itt) l₁ = 0) →
        CmdsnInv base none ((w.modify (·.setOutqueue kept)).modify
          (·.setCmdsn (w.iscsi.cmdsn - g))) := fun g hg hb =>
      hi.unlink (unlinkSpec_modify hg hb) fun a ha => by simp at ha
    have hfinish : ∀ g : UInt32, CmdsnInv base none ((w.modify (·.setOutqueue kept)).modify
          (·.setCmdsn (w.iscsi.cmdsn - g))) → ∀ b rest p,
        w.iscsi.outqueue.filter (w.selects (hasItt itt)) = b :: rest →
        w₃ = (((w.modify (·.setOutqueue kept)).modify
          (·.setCmdsn (w.iscsi.cmdsn - g))).called b p scsiStatusCancelled).release b →
        Advances base none w w₃ := by
      rintro g hinv b rest p hb rfl
      have hq := (quiet_called ((w.modify (·.setOutqueue kept)).modify
          (·.setCmdsn (w.iscsi.cmdsn - g))) b p scsiStatusCancelled).trans
        (quiet_release (a := b) (by
          have hgone : b ∉ kept := not_mem_kept hb
          simpa [World.called] using hgone))
      exact .of_inv hq.taken (hinv.quiet_none hq)
    rcases hgood with ⟨b, hb, hsel⟩ | hnocmd | ⟨l₁, c, l₂, hl, hcsel, hccmd, hl₁, hl₂⟩
    · simp [hnone rfl b hb] at hsel
    · have hinv := hdone 0 (gapOf_eq_zero hnocmd).symm fun l₁ a l₂ hl _ =>
        gapOf_eq_zero fun b hb => hnocmd b (hl ▸ by simp [hb])
      obtain ⟨_, rfl⟩ | ⟨b, rest, p, hb, hp, hw₁⟩ := cancelTmp_cases hcancel
      · rw [UInt32.sub_zero] at hinv
        exact .of_inv rfl hinv
      · have hpc : p.isCommand = false := by
          have hm : b ∈ w.iscsi.outqueue.filter (w.selects (hasItt itt)) := by rw [hb]; simp
          have hcmd := hnocmd b (List.mem_filter.1 hm).1 (List.mem_filter.1 hm).2
          have hp' : w.pdus b = some p := hp
          simpa [World.isCommandAt, hp'] using hcmd
        rw [hpc] at hw₁
        exact hfinish 0 hinv b rest p hb hw₁
    · -- what stays stands before the command
      have hinv := hdone 1 (by rw [hl, gapOf_eq_one hcsel hccmd hl₁ fun b hb => (hl₂ b hb).2])
        fun m₁ a m₂ hm ha => gapOf_eq_zero fun b hb hbsel => by
          rcases List.append_eq_append_iff.1 (hl.symm.trans hm) with ⟨m, rfl, hm'⟩ | ⟨m, rfl, _⟩
          · cases m with
            | nil =>
              obtain ⟨rfl, _⟩ := List.cons.inj hm'
              simp [hcsel] at ha
            | cons x m =>
              have hmem : a ∈ l₂ := by
                obtain ⟨_, rfl⟩ := List.cons.inj hm'
                simp
              simp [(hl₂ a hmem).1] at ha
          · simp [hl₁ b (by simp [hb])] at hbsel
      have htmp : w.iscsi.outqueue.filter (w.selects (hasItt itt)) =
          c :: l₂.filter (w.selects (hasItt itt)) := by
        rw [hl, List.filter_append, List.filter_eq_nil_iff.2 fun b hb => by simp [hl₁ b hb],
          List.nil_append, List.filter_cons_of_pos hcsel]
      rw [htmp] at hcancel
      obtain ⟨hnil, _⟩ | ⟨b, rest, p, hb, hp, hw₁⟩ := cancelTmp_cases hcancel
      · cases hnil
      · obtain ⟨rfl, rfl⟩ := List.cons.inj hb
        have hpc : p.isCommand = true := by
          have hp' : w.pdus c = some p := hp
          simpa [World.isCommandAt, hp'] using hccmd
        rw [hpc] at hw₁
        exact hfinish 1 hinv c _ p htmp hw₁

/-- A completion commutes with a change of `outqueue`. -/
theorem called_setOutqueue (w : World) (a : Addr) (p : Pdu) (status : Status) (l : List Addr) :
    (w.called a p status).modify (·.setOutqueue l) =
      (w.modify (·.setOutqueue l)).called a p status := by
  unfold World.called Pdu.callbackContext
  split <;> rfl

/-- One turn of the loop over `outqueue` of `iscsi_cancel_pdus`. -/
theorem cancelOutqueue_cons {rest : List Addr} (h : cancelOutqueue (a :: rest) w = .ok w') :
    ∃ p, w.pdus a = some p ∧
      cancelOutqueue rest ((((w.modify (·.setOutqueue rest)).modify
        (·.setCmdsn (w.iscsi.cmdsn - if p.isCommand then 1 else 0))).called a p
          scsiStatusCancelled).release a) = .ok w' := by
  unfold cancelOutqueue at h
  obtain ⟨w₁, h₁, h⟩ := Outcome.bind_eq_ok.1 h
  obtain ⟨p, hp, rfl⟩ := invokeCallback_called h₁
  have hp' : ((w.modify (·.setOutqueue rest)).called a p scsiStatusCancelled).deref a = .ok p :=
    World.deref_eq_ok.2 hp
  rw [hp', Outcome.ok_bind] at h
  obtain ⟨w₂, h₂, h⟩ := Outcome.bind_eq_ok.1 h
  obtain ⟨_, rfl⟩ := iscsiFreePdu_eq_ok.1 h₂
  refine ⟨p, hp, ?_⟩
  rw [← h, ← called_setCmdsn]
  have hsn : ((w.modify (·.setOutqueue rest)).called a p scsiStatusCancelled).iscsi.cmdsn =
      w.iscsi.cmdsn := by simp [World.called]
  cases p.isCommand with
  | true => simp only [if_true, World.modify, hsn] at *
  | false =>
    simp only [Bool.false_eq_true, if_false, UInt32.sub_zero, World.modify, ← hsn] at *
    rfl

/-- The loop over `outqueue` of `iscsi_cancel_pdus` gives the CmdSNs of the commands back, and
does with an empty `outqueue` what it does. -/
theorem cancelOutqueue_spec : ∀ {l : List Addr} {w w' : World}, w.iscsi.outqueue = l → l.Nodup →
    cancelOutqueue l w = .ok w' →
    QuietQueue (w.modify (·.setOutqueue [])) w' ∧
      w'.iscsi.cmdsn = w.iscsi.cmdsn - UInt32.ofNat (l.countP w.isCommandAt)
  | [], w, w', hq, _, h => by
    obtain rfl := Except.ok.inj h
    have hself : w.modify (·.setOutqueue []) = w := by
      rw [← hq]
      rfl
    exact ⟨by rw [hself]; exact .refl w, by simp⟩
  | a :: rest, w, w', _, hnd, h => by
    obtain ⟨harest, hnd⟩ := List.nodup_cons.1 hnd
    obtain ⟨p, hp, h⟩ := cancelOutqueue_cons h
    set n := w.iscsi.cmdsn - if p.isCommand then 1 else 0
    set w₁ := (((w.modify (·.setOutqueue rest)).modify (·.setCmdsn n)).called a p
      scsiStatusCancelled).release a
    obtain ⟨hq, hsn⟩ := cancelOutqueue_spec (w := w₁) (by simp [w₁, World.release, World.called])
      hnd h
    have hw₁ : w₁.modify (·.setOutqueue []) =
        (((w.modify (·.setOutqueue [])).modify (·.setCmdsn n)).called a p
          scsiStatusCancelled).release a := by
      have hcomm : ((w.modify (·.setOutqueue [])).modify (·.setCmdsn n)).called a p
          scsiStatusCancelled = (((w.modify (·.setOutqueue rest)).modify (·.setCmdsn n)).called a p
            scsiStatusCancelled).modify (·.setOutqueue []) := by
        rw [called_setOutqueue]
        rfl
      rw [hcomm]
      rfl
    refine ⟨.trans ?_ hq, ?_⟩
    · rw [hw₁]
      exact (quiet_setCmdsn n).trans ((quiet_called _ a p _).toQuietQueue.trans
        (quiet_release (by simp [World.called])).toQuietQueue)
    · have hcount : rest.countP w₁.isCommandAt = rest.countP w.isCommandAt :=
        List.countP_congr fun b hb => by
          have hne : b ≠ a := ne_of_mem_of_not_mem hb harest
          have : w₁.pdus b = w.pdus b := Function.update_of_ne hne ..
          simp [World.isCommandAt, this]
      have hn : w₁.iscsi.cmdsn = n := by simp [w₁, World.release, World.called]
      have hcmd : w.isCommandAt a = p.isCommand := by simp [World.isCommandAt, hp]
      rw [hsn, hcount, hn, List.countP_cons, hcmd]
      simp only [n]
      cases p.isCommand with
      | true => simp [UInt32.ofNat_add]; grind
      | false => simp

/-- The loop over the former `waitpdu` of `iscsi_cancel_pdus` completes PDUs. -/
theorem cancelWaitpdu_quiet : ∀ {l : List Addr} {w w' : World}, w.iscsi.outqueue = [] →
    cancelWaitpdu l w = .ok w' → Quiet w w'
  | [], w, w', _, h => by
    obtain rfl := Except.ok.inj h
    exact .refl w
  | a :: rest, w, w', hq, h => by
    unfold cancelWaitpdu at h
    obtain ⟨w₁, h₁, h⟩ := Outcome.bind_eq_ok.1 h
    have hq₁ := (quiet_completePdu (by simp [hq]) h₁).1
    exact hq₁.trans (cancelWaitpdu_quiet (hq₁.outqueue.trans hq) h)

/-- **`iscsi_cancel_pdus` keeps the invariant**: the CmdSNs of all queued commands are given
back. -/
theorem CmdsnInv.cancelPdus (hi : CmdsnInv base none w) (h : iscsiCancelPdus w = .ok w') :
    Advances base none w w' := by
  unfold iscsiCancelPdus at h
  obtain ⟨w₁, h₁, h⟩ := Outcome.bind_eq_ok.1 h
  obtain ⟨hq₁, hsn⟩ := cancelOutqueue_spec rfl (List.nodup_append.1 hi.nodup).1 h₁
  have hempty : w₁.iscsi.outqueue = [] := hq₁.outqueue
  have hinv : QueueInv base (w.modify (·.setOutqueue [])) :=
    { olds := hi.olds
      nodup := hi.nodup.sublist (List.sublist_append_right _ _)
      below := fun b hb => hi.below b (by
        simp only [Context.addrs, World.modify_iscsi, Context.setOutqueue_outqueue,
          Context.setOutqueue_waitpdu, Context.setOutqueue_outqueueCurrent, List.nil_append,
          List.mem_append] at hb ⊢
        exact hb.imp_left .inr)
      current := fun b _ => List.not_mem_nil
      sendable := fun b hb => absurd hb List.not_mem_nil
      windowed := trivial
      bound := by simp [World.commandsQueued] }
  have hi₁ : CmdsnInv base none w₁ :=
    { toQueueInv := hinv.quiet hq₁
      cmdsn := by
        have hcount : w.iscsi.outqueue.countP w.isCommandAt = w.commandsQueued :=
          List.countP_congr fun b hb => by
            obtain ⟨p, hp, _⟩ := hi.sendable b hb
            rw [w.isCommandAt_eq b (by simp [hp])]
        have hzero : w₁.commandsQueued = 0 := by simp [World.commandsQueued, hempty]
        rw [hsn, hcount, hi.cmdsn, hzero]
        grind
      isLast := by simp }
  have hq₂ := quiet_setWaitpdu (w := w₁) (List.nil_sublist _)
  have hq := hq₂.trans (cancelWaitpdu_quiet (by simpa using hempty) h)
  exact .of_inv (by rw [hq.taken, hq₁.taken]; rfl) (hi₁.quiet_none hq)

end

/-! ## Other requests -/

section
variable {service : World → Res World} {base : UInt32} {w w' : World} {r : Int}

/-- Taking the next tag concerns no queue. -/
theorem CmdsnInv.ittPostIncrement {last : Option Addr} (hi : CmdsnInv base last w) :
    CmdsnInv base last (iscsiIttPostIncrement w).2 := by
  obtain ⟨hq, hn⟩ := quiet_modify (w := w) (f := fun c => { c with
    itt := if w.iscsi.itt + 1 = 0xffffffff then 0 else w.iscsi.itt + 1 }) rfl rfl (.inl rfl) rfl rfl
  exact hi.quiet hq hn

/-- **`iscsi_send_target_nop_out` keeps the invariant.** -/
theorem CmdsnInv.targetNopOut (hserves : Serves service) {ttt lun : UInt32}
    (hi : CmdsnInv base none w) (h : iscsiSendTargetNopOut service w ttt lun = .ok (r, w')) :
    Advances base none w w' := by
  unfold iscsiSendTargetNopOut at h
  refine hi.sendRequest hserves logsOnly_logNopOut ?_ h
  refine preparesImmediate fun p => ⟨rfl, ?_, ?_⟩
  · simp [Pdu.setLun, Pdu.setTtt, Pdu.setPduflags, Pdu.setImmediate, Pdu.setField, Pdu.setByte]
  · simp [Pdu.setLun, Pdu.setTtt, Pdu.setPduflags, Pdu.setImmediate, Pdu.setField, Pdu.setByte,
      byte_scsiSetUint32, byte_scsiSetUint16, byte_set_ne]

/-- **`iscsi_task_mgmt_async` keeps the invariant.** -/
theorem CmdsnInv.taskMgmt (hserves : Serves service) {lun ritt rcmdsn : UInt32}
    {function : TaskMgmtFunc} {cb : Option Callback} {privateData : Nat}
    (hi : CmdsnInv base none w)
    (h : iscsiTaskMgmtAsync service w lun function ritt rcmdsn cb privateData = .ok (r, w')) :
    Advances base none w w' := by
  unfold iscsiTaskMgmtAsync at h
  split at h
  · obtain ⟨_, rfl⟩ := Prod.mk.inj (Except.ok.inj h)
    exact .of_inv rfl hi
  · refine Advances.of_quiet (show takenCmdsns (iscsiIttPostIncrement w).2.trace = _ from rfl)
      (hi.ittPostIncrement.sendRequest hserves logsOnly_logNothing ?_ h)
    refine preparesImmediate fun p => ⟨rfl, ?_, ?_⟩
    · simp [Pdu.setLun, Pdu.setRitt, Pdu.setRcmdsn, Pdu.setPduflags, Pdu.setImmediate,
        Pdu.setField, Pdu.setByte]
    · simp [Pdu.setLun, Pdu.setRitt, Pdu.setRcmdsn, Pdu.setPduflags, Pdu.setImmediate,
        Pdu.setField, Pdu.setByte, byte_scsiSetUint32, byte_scsiSetUint16, byte_set_ne]

/-- **`iscsi_discovery_async` keeps the invariant.** -/
theorem CmdsnInv.discovery (hserves : Serves service) {cb : Option Callback} {privateData : Nat}
    (hi : CmdsnInv base none w)
    (h : iscsiDiscoveryAsync service w cb privateData = .ok (r, w')) :
    Advances base none w w' := by
  unfold iscsiDiscoveryAsync at h
  refine Advances.of_quiet (show takenCmdsns (iscsiIttPostIncrement w).2.trace = _ from rfl)
    (hi.ittPostIncrement.sendRequest hserves logsOnly_logNothing ?_ h)
  refine preparesImmediate fun p => ⟨rfl, ?_, ?_⟩
  · simp [Pdu.setTtt, Pdu.setPduflags, Pdu.setImmediate, Pdu.setField, Pdu.setByte]
  · simp [Pdu.setTtt, Pdu.setPduflags, Pdu.setImmediate, Pdu.setField, Pdu.setByte,
      byte_scsiSetUint32, byte_set_ne]

/-- **`iscsi_logout_async` keeps the invariant.** -/
theorem CmdsnInv.logout (hserves : Serves service) {cb : Option Callback} {privateData : Nat}
    (hi : CmdsnInv base none w)
    (h : iscsiLogoutAsync service w cb privateData = .ok (r, w')) :
    Advances base none w w' := by
  unfold iscsiLogoutAsync at h
  simp only at h
  set w₁ := w.modify fun c => { c with loginAttempts := 0 }
  obtain ⟨hq, hn⟩ : Quiet w w₁ ∧ SameNumbers w w₁ := quiet_modify rfl rfl (.inl rfl) rfl rfl
  have hi₁ := hi.quiet hq hn
  split at h
  · obtain ⟨_, rfl⟩ := Prod.mk.inj (Except.ok.inj h)
    exact .of_inv rfl hi₁
  · refine Advances.of_quiet (show takenCmdsns (iscsiIttPostIncrement w₁).2.trace = _ from rfl)
      (hi₁.ittPostIncrement.sendRequest hserves logsOnly_logNothing ?_ h)
    refine preparesImmediate fun p => ⟨rfl, ?_, ?_⟩
    · simp [Pdu.setPduflags, Pdu.setImmediate, Pdu.setByte]
    · simp [Pdu.setPduflags, Pdu.setImmediate, Pdu.setByte, byte_set_ne]

end

/-! ## Runs -/

/-- What may happen on a connection. -/
inductive CmdsnAct where
  | command (lun : UInt32) (t : TaskPtr) (cb : Option Callback) (d : Option ScsiIovec)
      (privateData : Nat)
  | nopOut (cb : Option Callback) (data : List UInt8) (privateData : Nat)
  | targetNopOut (ttt lun : UInt32)
  | taskMgmt (lun : UInt32) (function : TaskMgmtFunc) (ritt rcmdsn : UInt32)
      (cb : Option Callback) (privateData : Nat)
  | discovery (cb : Option Callback) (privateData : Nat)
  | logout (cb : Option Callback) (privateData : Nat)
  | write
  | timeoutScan
  | cancelLun (lun : UInt32)
  | cancelTask (t : TaskPtr)
  | cancelPdus
  /-- A response to a PDU of `waitpdu` arrives. -/
  | complete (a : Addr) (status : Status)
  /-- Time passes, the application and the target do something, and what is not part of the
  queues changes. -/
  | environment

/-- The queues, the PDUs, the next CmdSN and the form of the headers have stayed as they are. -/
structure SameQueues (w w' : World) : Prop where
  olds : w'.olds = w.olds
  pdus : w'.pdus = w.pdus
  brk : w'.brk = w.brk
  trace : w'.trace = w.trace
  outqueue : w'.iscsi.outqueue = w.iscsi.outqueue
  waitpdu : w'.iscsi.waitpdu = w.iscsi.waitpdu
  current : w'.iscsi.outqueueCurrent = w.iscsi.outqueueCurrent
  cmdsn : w'.iscsi.cmdsn = w.iscsi.cmdsn
  headerDigest : w'.iscsi.headerDigest = w.iscsi.headerDigest

theorem SameQueues.quiet {w w' : World} (h : SameQueues w w') : Quiet w w' where
  olds := h.olds
  outqueue := h.outqueue
  waitpdu := by rw [h.waitpdu]
  current := .inl h.current
  headerDigest := h.headerDigest
  brk := le_of_eq h.brk.symm
  queued a _ := World.keyAt_congr (by rw [h.pdus])
  taken := by rw [h.trace]
  cmdsn := h.cmdsn

/-- The steps of a connection. -/
def CmdsnStep (service : World → Res World) : CmdsnAct → World → World → Prop
  | .command lun t cb d privateData, w, w' =>
    ∃ r, iscsiScsiCommandAsync service w lun t cb d privateData = .ok (r, w')
  | .nopOut cb data privateData, w, w' =>
    ∃ r, iscsiNopOutAsync service w cb data privateData = .ok (r, w')
  | .targetNopOut ttt lun, w, w' => ∃ r, iscsiSendTargetNopOut service w ttt lun = .ok (r, w')
  | .taskMgmt lun function ritt rcmdsn cb privateData, w, w' =>
    ∃ r, iscsiTaskMgmtAsync service w lun function ritt rcmdsn cb privateData = .ok (r, w')
  | .discovery cb privateData, w, w' =>
    ∃ r, iscsiDiscoveryAsync service w cb privateData = .ok (r, w')
  | .logout cb privateData, w, w' => ∃ r, iscsiLogoutAsync service w cb privateData = .ok (r, w')
  | .write, w, w' => ∃ r, iscsiWriteToSocket w = .ok (r, w')
  | .timeoutScan, w, w' => iscsiTimeoutScan w = .ok w'
  | .cancelLun lun, w, w' => iscsiCancelLunPdus w lun = .ok w'
  | .cancelTask t, w, w' => ∃ r, iscsiScsiCancelTask w t = .ok (r, w')
  | .cancelPdus, w, w' => iscsiCancelPdus w = .ok w'
  | .complete a status, w, w' => a ∈ w.iscsi.waitpdu ∧
    completePdu (w.modify (·.setWaitpdu (w.iscsi.waitpdu.erase a))) a status = .ok w'
  | .environment, w, w' => SameQueues w w'

/-- The conditions under which a step leaves the CmdSNs contiguous: there is room for a command
within half of the serial numbers, and the DATA-OUTs that follow it can be allocated; and a task
that is cancelled has no command behind it in `outqueue`. -/
def CmdsnGood : CmdsnAct → World → Prop
  | .command _ t _ d _, w => w.commandsQueued + 1 < 2 ^ 31 - 1 ∧ w.DataOutsAllocated t d
  | .nopOut _ _ _, w => w.commandsQueued + 1 < 2 ^ 31 - 1
  | .cancelTask t, w => CancelKeepsOrder w (w.tasks t).itt
  | _, _ => True

/-- **Every step keeps the invariant.** -/
theorem CmdsnInv.step {service : World → Res World} (hserves : Serves service) {base : UInt32}
    {w w' : World} {act : CmdsnAct} (hi : CmdsnInv base none w)
    (h : CmdsnStep service act w w') (hgood : CmdsnGood act w) : Advances base none w w' := by
  cases act with
  | command lun t cb d privateData =>
    obtain ⟨r, h⟩ := h
    exact hi.command hserves hgood.1 hgood.2 h
  | nopOut cb data privateData =>
    obtain ⟨r, h⟩ := h
    exact hi.nopOut hserves hgood h
  | targetNopOut ttt lun =>
    obtain ⟨r, h⟩ := h
    exact hi.targetNopOut hserves h
  | taskMgmt lun function ritt rcmdsn cb privateData =>
    obtain ⟨r, h⟩ := h
    exact hi.taskMgmt hserves h
  | discovery cb privateData =>
    obtain ⟨r, h⟩ := h
    exact hi.discovery hserves h
  | logout cb privateData =>
    obtain ⟨r, h⟩ := h
    exact hi.logout hserves h
  | write =>
    obtain ⟨r, h⟩ := h
    exact hi.write h
  | timeoutScan =>
    obtain ⟨hi', ht⟩ := hi.timeoutScan h
    exact .of_inv ht hi'
  | cancelLun lun => exact hi.cancelLun h
  | cancelTask t =>
    obtain ⟨r, h⟩ := h
    exact hi.cancelTask hgood h
  | cancelPdus => exact hi.cancelPdus h
  | complete a status => exact hi.complete h.1 h.2
  | environment => exact .of_inv h.quiet.taken (hi.quiet_none h.quiet)

/-- **Every run of good steps keeps the invariant.** -/
theorem CmdsnInv.run {service : World → Res World} (hserves : Serves service) {base : UInt32}
    {w w' : World} (hi : CmdsnInv base none w)
    (hrun : GoodRun (CmdsnStep service) CmdsnGood w w') : Advances base none w w' := by
  induction hrun with
  | refl => exact .of_inv rfl hi
  | tail _ hstep ih =>
    obtain ⟨act, hstep, hgood⟩ := hstep
    exact ih.bind fun base' hi' => hi'.step hserves hstep hgood

/-! ## The CmdSNs that were sent and those that will be -/

/-- The CmdSNs of the commands in `outqueue`. -/
def World.queuedCmdsns (w : World) : List UInt32 :=
  w.iscsi.outqueue.filterMap fun a =>
    (w.pdus a).bind fun p => if p.isCommand then some p.cmdsn else none

/-- The CmdSNs of the commands that were taken since `w₀` and of those in `outqueue` are the
serial numbers that follow `n₀`, up to the one before `iscsi->cmdsn`, and no two commands of
`outqueue` have the same. -/
def CmdsnContiguous (n₀ : UInt32) (w₀ w : World) : Prop :=
  ∃ k m, takenCmdsns w.trace = takenCmdsns w₀.trace ++ following n₀ k ∧
    w.queuedCmdsns = following (n₀ + UInt32.ofNat k) m ∧ w.queuedCmdsns.Nodup ∧
    w.iscsi.cmdsn = n₀ + UInt32.ofNat k + UInt32.ofNat m + 1

/-- Fewer than 2³² consecutive serial numbers are distinct. -/
theorem nodup_following {n : UInt32} {k : Nat} (hk : k < 2 ^ 32) : (following n k).Nodup := by
  unfold following
  refine List.Nodup.map_on (fun i hi j hj h => ?_) List.nodup_range'
  have hi := List.mem_range'_1.1 hi
  have hj := List.mem_range'_1.1 hj
  have h := congrArg UInt32.toNat (add_left_cancel h)
  simp only [UInt32.toNat_ofNat'] at h
  omega

/-- What the invariant says of the CmdSNs in `outqueue`. -/
theorem CmdsnInv.queuedCmdsns {base : UInt32} {last : Option Addr} {w : World}
    (hi : CmdsnInv base last w) : w.queuedCmdsns = following base w.commandsQueued := by
  have hoff := hi.windowed.offsets
  rw [Nat.zero_add] at hoff
  unfold following World.commandsQueued
  rw [← hoff, List.map_map, ← List.filterMap_eq_map, List.filterMap_filter]
  refine List.filterMap_congr fun a ha => ?_
  obtain ⟨p, hp, _⟩ := hi.sendable a ha
  have hsn : base + (p.cmdsn - base) = p.cmdsn := by grind
  simp [hp, World.roleAt_of_some hp, World.offAt_of_some hp, Pdu.role_eq_numbered, hsn]

/-- A connection on which nothing has been sent yet. -/
structure World.Connected (w : World) : Prop where
  olds : w.olds = []
  outqueue : w.iscsi.outqueue = []
  waitpdu : w.iscsi.waitpdu = []
  current : w.iscsi.outqueueCurrent = none

theorem World.Connected.cmdsnInv {w : World} (h : w.Connected) :
    CmdsnInv (w.iscsi.cmdsn - 1) none w where
  olds := h.olds
  nodup := by simp [h.outqueue, h.waitpdu]
  below a ha := by simp [Context.addrs, h.outqueue, h.waitpdu, h.current] at ha
  current a ha := by simp [h.current] at ha
  sendable a ha := by simp [h.outqueue] at ha
  windowed := by rw [h.outqueue]; trivial
  bound := by simp [commandsQueued, h.outqueue]
  cmdsn := by
    have hzero : w.commandsQueued = 0 := by simp [commandsQueued, h.outqueue]
    rw [hzero]
    grind
  isLast := by simp

/-- **CmdSNs are contiguous** in every state that a run of good steps reaches. -/
theorem cmdsn_contiguous {service : World → Res World} (hserves : Serves service) {w₀ w : World}
    (h₀ : w₀.Connected) (hrun : GoodRun (CmdsnStep service) CmdsnGood w₀ w) :
    CmdsnContiguous (w₀.iscsi.cmdsn - 1) w₀ w := by
  obtain ⟨k, ht, hi⟩ := h₀.cmdsnInv.run hserves hrun
  refine ⟨k, w.commandsQueued, ht, hi.queuedCmdsns, ?_, ?_⟩
  · rw [hi.queuedCmdsns]
    exact nodup_following (by have := hi.bound; omega)
  · rw [hi.cmdsn]
    grind

/-! ## A command that is cancelled while another stands behind it -/

/-- A session that has just been logged in, on a socket with these outcomes. -/
def loggedIn (sends : List SendResult) : World :=
  { iscsi := { sessionType := .normal, isLoggedin := true, cmdsn := 1, maxcmdsn := 8, expcmdsn := 1
               fd := 3 }
    sends }

theorem loggedIn_connected (sends : List SendResult) : (loggedIn sends).Connected :=
  ⟨rfl, rfl, rfl, rfl⟩

/-- A `service` that writes to the socket. -/
def writeService (w : World) : Res World := (iscsiWriteToSocket w).map Prod.snd

theorem writeService_serves : Serves writeService := by
  intro w w' h
  unfold writeService at h
  rcases hr : iscsiWriteToSocket w with _ | ⟨r, w₁⟩
  · rw [hr] at h
    cases h
  · rw [hr] at h
    obtain rfl := Except.ok.inj h
    exact .single (.write hr)

/-- A command without data for a task. -/
def submitTask (w : World) (t : TaskPtr) : Res World :=
  (iscsiScsiCommandAsync writeService w 0 t none none 0).map Prod.snd

theorem submitTask_step {w w' : World} {t : TaskPtr} (h : submitTask w t = .ok w') :
    CmdsnStep writeService (.command 0 t none none 0) w w' := by
  unfold submitTask at h
  rcases hr : iscsiScsiCommandAsync writeService w 0 t none none 0 with _ | ⟨r, w₁⟩
  · rw [hr] at h
    cases h
  · rw [hr] at h
    obtain rfl := Except.ok.inj h
    exact ⟨r, hr⟩

/-- A command that is sent at once. -/
theorem cmdsn_contiguous_one : ∃ w, submitTask (loggedIn [.accepted 47]) 0 = .ok w ∧
    takenCmdsns w.trace = [1] ∧ CmdsnContiguous 0 (loggedIn [.accepted 47]) w := by
  have hrun : (submitTask (loggedIn [.accepted 47]) 0).toOption.map
      (fun w => takenCmdsns w.trace) = some [1] := by decide
  rcases h : submitTask (loggedIn [.accepted 47]) 0 with _ | w
  · rw [h] at hrun
    cases hrun
  · rw [h] at hrun
    refine ⟨w, rfl, Option.some.inj hrun, cmdsn_contiguous writeService_serves
      (loggedIn_connected _) (.single ⟨submitTask_step h, by decide, ?_⟩)⟩
    simp [World.DataOutsAllocated, loggedIn]

/-- Three commands of which the socket takes none of the bytes, and the second one cancelled. -/
def cancelSecond : Res World := do
  let w ← submitTask (loggedIn []) 0
  let w ← submitTask w 1
  let w ← submitTask w 2
  let (_, w) ← iscsiScsiCancelTask w 1
  .ok w

/-- The commands 1, 2 and 3 are submitted, the first is being sent and the second is cancelled:
the third keeps its CmdSN, which the next command will get too, and there is none with CmdSN 2. -/
theorem cancelTask_leaves_gap :
    ¬∀ (service : World → Res World) (w₀ w : World), Serves service → w₀.Connected →
      Run (CmdsnStep service) w₀ w → CmdsnContiguous (w₀.iscsi.cmdsn - 1) w₀ w := by
  intro hall
  have hrun : cancelSecond.toOption.map (fun w =>
      (takenCmdsns w.trace, w.queuedCmdsns, w.iscsi.cmdsn)) = some ([1], [3], 3) := by decide
  rcases h : cancelSecond with _ | w
  · rw [h] at hrun
    cases hrun
  rw [h] at hrun
  obtain ⟨htaken, hrest⟩ := Prod.mk.inj (Option.some.inj hrun)
  obtain ⟨hqueued, _⟩ := Prod.mk.inj hrest
  unfold cancelSecond at h
  obtain ⟨w₁, h₁, h⟩ := Outcome.bind_eq_ok.1 h
  obtain ⟨w₂, h₂, h⟩ := Outcome.bind_eq_ok.1 h
  obtain ⟨w₃, h₃, h⟩ := Outcome.bind_eq_ok.1 h
  obtain ⟨⟨r, w₄⟩, h₄, h⟩ := Outcome.bind_eq_ok.1 h
  obtain rfl := Except.ok.inj h
  obtain ⟨k, m, ht, hq, _, _⟩ := hall writeService (loggedIn []) w₄ writeService_serves
    (loggedIn_connected _) ((((Run.single (submitTask_step h₁)).tail
      ⟨_, submitTask_step h₂⟩).tail ⟨_, submitTask_step h₃⟩).tail ⟨.cancelTask 1, r, h₄⟩)
  have hk : k = 1 := by
    have hlen := congrArg List.length (htaken.symm.trans ht)
    simpa [takenCmdsns, loggedIn, following] using hlen.symm
  have hm : m = 1 := by
    have hlen := congrArg List.length (hqueued.symm.trans hq)
    simpa [following] using hlen.symm
  subst hk hm
  rw [hqueued] at hq
  exact absurd hq (by decide)

end Libiscsi
