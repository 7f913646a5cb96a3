import Libiscsi.DataOutSteps

/-!
# The commands of the queued DATA-OUTs: submissions

Queueing a PDU calls `service`, which may look for expired PDUs. A DATA-OUT is queued for a command
that is in one of the queues and has not expired, so that the command is still there when the next
one is queued (`OwnerInv.sendDataOut`).
-/

namespace Libiscsi

open Numbering

/-! ## Steps that do not concern the queues -/

section
variable {w w' : World} {a : Addr}

theorem OwnerInv.fresh (hi : OwnerInv w) : w.brk ∉ w.iscsi.addrs := fun hm =>
  lt_irrefl _ (hi.below _ hm)

theorem notMem_queues (ha : a ∉ w.iscsi.addrs) : a ∉ w.iscsi.outqueue ++ w.iscsi.waitpdu :=
  fun h => ha (List.mem_append_left _ h)

theorem Keeps.notMem_addrs (h : Keeps w w') (ha : a ∉ w.iscsi.addrs) : a ∉ w'.iscsi.addrs :=
  fun hm => ha (h.toThins.mem_addrs hm)

/-- A PDU in none of the queues is stored. -/
theorem keeps_setPdu (ha : a ∉ w.iscsi.addrs) (p : Pdu) : Keeps w (w.setPdu a p) :=
  ⟨.of_eq rfl rfl (le_refl _) rfl (.refl _) (.refl _) (.inl rfl) fun _ hb =>
    Function.update_of_ne (ne_of_mem_of_not_mem hb ha) .., rfl, rfl⟩

/-- A PDU is stored with another value that is like it. -/
theorem keeps_setPdu_alike {p q : Pdu} (hp : w.pdus a = some p) (hpq : p.Alike q) :
    Keeps w (w.setPdu a q) := by
  refine ⟨⟨rfl, rfl, le_refl _, rfl, .refl _, .refl _, .inl rfl, fun b _ hb => ?_,
    fun b _ r s hr hs => ?_⟩, rfl, rfl⟩
  · rw [World.setPdu_pdus]
    by_cases hba : b = a
    · rw [hba, Function.update_self]
      rfl
    · rwa [Function.update_of_ne hba]
  · rw [World.setPdu_pdus] at hs
    by_cases hba : b = a
    · subst hba
      rw [Function.update_self] at hs
      obtain rfl := Option.some.inj (hp.symm.trans hr)
      obtain rfl := Option.some.inj hs
      exact hpq
    · rw [Function.update_of_ne hba, hr] at hs
      obtain rfl := Option.some.inj hs
      exact .refl _

theorem keeps_allocs (allocs : List Bool) : Keeps w { w with allocs } :=
  ⟨.of_eq rfl rfl (le_refl _) rfl (.refl _) (.refl _) (.inl rfl) fun _ _ => rfl, rfl, rfl⟩

theorem keeps_modifyTask (t : TaskPtr) (f : ScsiTask → ScsiTask) : Keeps w (w.modifyTask t f) :=
  ⟨.of_eq rfl rfl (le_refl _) rfl (.refl _) (.refl _) (.inl rfl) fun _ _ => rfl, rfl, rfl⟩

theorem keeps_newPdu (hb : w.brk ∉ w.iscsi.addrs) (p : Pdu) : Keeps w (w.newPdu p) :=
  ⟨.of_eq rfl rfl (Nat.le_succ _) rfl (.refl _) (.refl _) (.inl rfl) fun _ hm =>
    Function.update_of_ne (ne_of_mem_of_not_mem hm hb) .., rfl, rfl⟩

/-- An allocation, whatever its outcome. -/
theorem keeps_iscsiAllocatePdu {opcode responseOpcode : UInt8} {itt flags : UInt32}
    {r : Option Addr} (hb : w.brk ∉ w.iscsi.addrs)
    (h : iscsiAllocatePdu w opcode responseOpcode itt flags = (r, w')) : Keeps w w' := by
  cases r with
  | some a =>
    obtain ⟨_, rfl⟩ := iscsiAllocatePdu_some h
    exact (keeps_allocs (w.allocs.drop 2)).trans
      (keeps_newPdu (w := { w with allocs := w.allocs.drop 2 }) hb _)
  | none =>
    obtain ⟨allocs, rfl | rfl⟩ := iscsiAllocatePdu_none h
    · exact keeps_allocs allocs
    · have hnew := keeps_newPdu (w := { w with allocs }) hb {}
      exact ((keeps_allocs allocs).trans hnew).trans
        (keeps_release (w := ({ w with allocs } : World).newPdu {}) (notMem_queues hb))

end

/-! ## Queueing -/

section
variable {service : World → Res World} {w w' : World} {a : Addr} {p : Pdu}

/-- **A PDU is queued**: a DATA-OUT for a command in one of the queues that is not at risk, a
command that stays in `waitpdu` when it has been sent, or another PDU. -/
theorem OwnerInv.enqueue (hi : OwnerInv w) (hr : w.NoRisk) (ha : a ∉ w.iscsi.addrs)
    (hb : a < w.brk) (hp : w.pdus a = some p)
    (hsize : iscsiHeaderSize w.iscsi.headerDigest ≤ p.outdata.length)
    (hcommand : p.opcode = iscsiPduScsiRequest → p.hasFlag iscsiPduDeleteWhenSent = false)
    (hdata : p.opcode = iscsiPduDataOut → w.Command p.tag ∧ ¬w.Risky p.tag)
    (h : enqueue w a = .ok w') :
    Serving w w' ∧ (p.opcode = iscsiPduScsiRequest → w'.Staying a p.tag) := by
  obtain ⟨p', q, hp', hq, hframe, _⟩ := enqueue_spec (notMem_outqueue ha) h
  obtain rfl : p' = p := Option.some.inj (hp'.symm.trans hp)
  have hins : Inserted w w' a q := ⟨ha, hb, hframe⟩
  obtain ⟨hop, htag, hflags, hlen, hexp⟩ : q.opcode = p'.opcode ∧ q.tag = p'.tag ∧
      q.flags = p'.flags ∧ q.outdata.length = p'.outdata.length ∧ q.expired w.now = false := by
    obtain ⟨rfl, _⟩ | ⟨n, _, _, rfl⟩ := hq
    · exact ⟨rfl, rfl, rfl, rfl, not_expired_timeoutOf p' w⟩
    · have hren := Pdu.Renumbered.setCmdsn ({ p' with scsiTimeout := w.timeoutOf } : Pdu) n
      refine ⟨hren.opcode, hren.alike.tag, rfl, length_scsiSetUint32 .., ?_⟩
      rw [hren.expired]
      exact not_expired_timeoutOf p' w
  have hwait : w'.iscsi.waitpdu = w.iscsi.waitpdu := by rw [hins.iscsi]; rfl
  have hcur : w'.iscsi.outqueueCurrent = w.iscsi.outqueueCurrent := by rw [hins.iscsi]; rfl
  have hd : w'.iscsi.headerDigest = w.iscsi.headerDigest := by rw [hins.iscsi]; rfl
  have hother : ∀ b, b ≠ a → w'.pdus b = w.pdus b := fun b hne => by
    rw [hins.pdus, Function.update_of_ne hne]
  have hmem : ∀ b, b ∈ w'.iscsi.outqueue ++ w'.iscsi.waitpdu ↔
      b = a ∨ b ∈ w.iscsi.outqueue ++ w.iscsi.waitpdu := fun b => by
    rw [hwait, List.mem_append, hins.mem_outqueue, List.mem_append, or_assoc]
  have haddrs : ∀ b, b ∈ w'.iscsi.addrs ↔ b = a ∨ b ∈ w.iscsi.addrs := fun b => by
    unfold Context.addrs
    rw [List.mem_append, hmem, hcur, List.mem_append (s := w.iscsi.outqueue ++ _), or_assoc]
  have hne : ∀ b ∈ w.iscsi.addrs, b ≠ a := fun b hm => ne_of_mem_of_not_mem hm ha
  have hcmdAt : ∀ b k, b ∈ w.iscsi.outqueue ++ w.iscsi.waitpdu → w.CommandAt b k →
      w'.CommandAt b k := by
    rintro b k hm ⟨r, hr, hrest⟩
    exact ⟨r, by rw [hother b (hne b (List.mem_append_left _ hm)), hr], hrest⟩
  have hcmd : ∀ k, w.Command k → w'.Command k := by
    rintro k ⟨b, hm, hc⟩
    exact ⟨b, (hmem b).2 (.inr hm), hcmdAt b k hm hc⟩
  have hdataOut : ∀ k, w'.DataOut k → w.DataOut k ∨ p'.opcode = iscsiPduDataOut ∧ k = p'.tag := by
    rintro k ⟨d, hd, r, hrd, hrop, hrtag⟩
    rw [hcur, List.mem_append, hins.mem_outqueue] at hd
    by_cases hda : d = a
    · subst hda
      obtain rfl := Option.some.inj (hins.pdus_self.symm.trans hrd)
      exact .inr ⟨hop.symm.trans hrop, hrtag.symm.trans htag⟩
    · rw [hother d hda] at hrd
      refine .inl ⟨d, ?_, r, hrd, hrop, hrtag⟩
      rw [List.mem_append]
      exact hd.imp id fun hd => hd.resolve_left hda
  have hrisky : ∀ k, w'.Risky k → w.Risky k := by
    rintro k ⟨b, r, hrb, hrop, hrtag, hrexp, hm⟩
    rw [hins.now] at hrexp
    by_cases hba : b = a
    · subst hba
      obtain rfl := Option.some.inj (hins.pdus_self.symm.trans hrb)
      rw [hexp] at hrexp
      cases hrexp
    · rw [hother b hba] at hrb
      refine ⟨b, r, hrb, hrop, hrtag, hrexp, ?_⟩
      rw [hwait, hins.mem_outqueue] at hm
      exact hm.imp (fun hm => hm.resolve_left hba) id
  have hnodup : (w'.iscsi.outqueue ++ w'.iscsi.waitpdu).Nodup := by
    have hnot := notMem_queues ha
    rw [hwait, hins.outqueue, ((perm_insertBy ..).append_right _).nodup_iff, List.cons_append,
      List.nodup_cons]
    exact ⟨hnot, hi.nodup⟩
  have hinv : OwnerInv w' := by
    refine ⟨by rw [hframe]; exact hi.olds, hnodup, fun b hm => ?_, fun b hc => ?_, fun b hm => ?_,
      fun b hm r hrb => ?_, fun b hm r hrb hrop => ?_, fun b hc r hrb hflag => ?_, fun k hk => ?_⟩
    · rw [hins.brk]
      rcases (haddrs b).1 hm with rfl | hm
      · exact hb
      · exact hi.below b hm
    · rw [hcur] at hc
      rw [hins.mem_outqueue, not_or]
      refine ⟨hne b ?_, hi.current b hc⟩
      exact List.mem_append_right _ (by rw [hc]; exact List.mem_singleton_self b)
    · rcases (haddrs b).1 hm with rfl | hm
      · rw [hins.pdus_self]
        rfl
      · rw [hother b (hne b hm)]
        exact hi.live b hm
    · rw [hd]
      rcases hins.mem_outqueue.1 hm with rfl | hm
      · obtain rfl := Option.some.inj (hins.pdus_self.symm.trans hrb)
        rw [hlen]
        exact hsize
      · rw [hins.pdus_of_mem hm] at hrb
        exact hi.size b hm r hrb
    · rcases (hmem b).1 hm with rfl | hm
      · obtain rfl := Option.some.inj (hins.pdus_self.symm.trans hrb)
        unfold Pdu.hasFlag at hcommand ⊢
        rw [hflags]
        exact hcommand (hop.symm.trans hrop)
      · rw [hother b (hne b (List.mem_append_left _ hm))] at hrb
        exact hi.waits b hm r hrb hrop
    · rw [hcur] at hc
      rw [hwait]
      have hm : b ∈ w.iscsi.addrs :=
        List.mem_append_right _ (by rw [hc]; exact List.mem_singleton_self b)
      rw [hother b (hne b hm)] at hrb
      exact hi.sent b hc r hrb hflag
    · rcases hdataOut k hk with hk | ⟨hpop, rfl⟩
      · exact hcmd k (hi.owned k hk)
      · exact hcmd _ (hdata hpop).1
  refine ⟨⟨hinv, fun k hk hrk => ?_, ?_, hrisky⟩, fun hscsi => ?_⟩
  · rcases hdataOut k hk with hk | ⟨hpop, rfl⟩
    · exact hr k hk (hrisky k hrk)
    · exact (hdata hpop).2 (hrisky _ hrk)
  · rintro b k ⟨hm, hc, hbexp⟩
    refine ⟨(hmem b).2 (.inr hm), hcmdAt b k hm hc, fun r hrb => ?_⟩
    rw [hother b (hne b (List.mem_append_left _ hm))] at hrb
    rw [hins.now]
    exact hbexp r hrb
  · refine ⟨(hmem a).2 (.inl rfl), ⟨q, hins.pdus_self, hop.trans hscsi, htag⟩, fun r hra => ?_⟩
    obtain rfl := Option.some.inj (hins.pdus_self.symm.trans hra)
    rw [hins.now]
    exact hexp

/-- A PDU is queued, and `service` may follow. -/
theorem OwnerInv.queue (hserves : Serves service) (hi : OwnerInv w) (hr : w.NoRisk)
    (ha : a ∉ w.iscsi.addrs) (hb : a < w.brk) (hp : w.pdus a = some p)
    (hsize : iscsiHeaderSize w.iscsi.headerDigest ≤ p.outdata.length)
    (hcommand : p.opcode = iscsiPduScsiRequest → p.hasFlag iscsiPduDeleteWhenSent = false)
    (hdata : p.opcode = iscsiPduDataOut → w.Command p.tag ∧ ¬w.Risky p.tag)
    (h : iscsiQueuePdu service w a = .ok w') :
    Serving w w' ∧ (p.opcode = iscsiPduScsiRequest → w'.Staying a p.tag) := by
  obtain ⟨w₁, h₁, hserve⟩ := iscsiAddToOutqueue_cases h
  obtain ⟨hs₁, hstay⟩ := hi.enqueue hr ha hb hp hsize hcommand hdata h₁
  rcases hserve with rfl | hserve
  · exact ⟨hs₁, hstay⟩
  · have hs₂ := hs₁.inv.service hs₁.noRisk (hserves _ _ hserve)
    exact ⟨hs₁.trans hs₂, fun hop => hs₂.staying a _ (hstay hop)⟩

end

/-! ## DATA-OUTs and commands -/

section
variable (c : Context) (pdu cmd : Pdu) (opcode responseOpcode : UInt8) (itt flags : UInt32)
  (a : Addr) (lun ttt offset len : UInt32) (t : TaskPtr) (task : ScsiTask) (cb : Option Callback)
  (privateData : Nat) (last : Bool)

@[simp] theorem freshPdu_itt :
    (c.freshPdu opcode responseOpcode itt flags).itt = itt := rfl

@[simp] theorem freshPdu_flags :
    (c.freshPdu opcode responseOpcode itt flags).flags = flags := rfl

/-- A DATA-OUT with the tag of a command, for its task. -/
theorem asDataOut_tag (h : pdu.itt = cmd.itt) :
    (pdu.asDataOut cmd ttt offset len last).tag = cmd.tag := by
  rw [Pdu.tag, Pdu.tag, ← h]
  rfl

@[simp] theorem commandFor_tag :
    (pdu.commandFor c a lun t task cb privateData).tag = (pdu.itt, some t) := by
  unfold Pdu.tag Pdu.commandFor Pdu.setCdb Pdu.setCmdsn Pdu.asCommand
  simp only
  split <;> rfl

@[simp] theorem commandFor_flags :
    (pdu.commandFor c a lun t task cb privateData).flags = pdu.flags := by
  unfold Pdu.commandFor Pdu.setCdb Pdu.setCmdsn Pdu.asCommand
  simp only
  split <;> rfl

end

section
variable {service : World → Res World} {w w' : World} {a : Addr} {k : UInt32 × Option TaskPtr}

/-- One DATA-OUT is queued, for a command that stays. -/
theorem OwnerInv.sendOneDataOut (hserves : Serves service) {ttt offset len : UInt32} {last : Bool}
    {sent : Bool} (hi : OwnerInv w) (hr : w.NoRisk) (hstay : w.Staying a k) (hk : ¬w.Risky k)
    (hal : ∀ b ∈ w.allocs.take 2, b = true)
    (h : sendOneDataOut service w a ttt offset len last = .ok (sent, w')) :
    sent = true ∧ Serving w w' ∧ w'.allocs = w.allocs.drop 2 ∧
      w'.iscsi.targetMaxRecvDataSegmentLength = w.iscsi.targetMaxRecvDataSegmentLength := by
  unfold Libiscsi.sendOneDataOut at h
  obtain ⟨cmd, hcmd, h⟩ := Outcome.bind_eq_ok.1 h
  rw [World.deref_eq_ok] at hcmd
  rw [iscsiAllocatePdu_ok hal] at h
  simp only at h
  obtain ⟨fresh, hfresh, h⟩ := Outcome.bind_eq_ok.1 h
  have halloc : ∀ p, (w.allocated p).pdus w.brk = some p := fun p => Function.update_self ..
  rw [World.deref_eq_ok, halloc, Option.some.injEq] at hfresh
  subst hfresh
  obtain ⟨w₂, hq, h⟩ := Outcome.bind_eq_ok.1 h
  obtain ⟨rfl, rfl⟩ := Prod.mk.inj (Except.ok.inj h)
  have hmema : a ∈ w.iscsi.addrs := List.mem_append_left _ hstay.1
  have hab : a ≠ w.brk := ne_of_mem_of_not_mem hmema hi.fresh
  obtain ⟨q, hqa, hqop, hqtag⟩ := hstay.2.1
  obtain rfl := Option.some.inj (hcmd.symm.trans hqa)
  set p := (w.iscsi.freshPdu iscsiPduDataOut iscsiPduNoPdu cmd.itt
    (iscsiPduDropOnReconnect ||| iscsiPduDeleteWhenSent)) with hp
  set w₁ := ((w.allocated p).setPdu w.brk (p.asDataOut cmd ttt offset len last)).setPdu a
    { cmd with datasn := cmd.datasn + 1 } with hw₁
  have hw₁b : w₁.pdus w.brk = some (p.asDataOut cmd ttt offset len last) := by
    rw [hw₁, World.setPdu_pdus, Function.update_of_ne hab.symm, World.setPdu_pdus,
      Function.update_self]
  have hkeep : Keeps w w₁ := by
    have h₁ : Keeps w (w.allocated p) := keeps_iscsiAllocatePdu hi.fresh (iscsiAllocatePdu_ok hal)
    have h₂ := h₁.trans (keeps_setPdu (h₁.notMem_addrs hi.fresh)
      (p.asDataOut cmd ttt offset len last))
    refine h₂.trans (keeps_setPdu_alike (p := cmd) ?_ ⟨rfl, rfl, rfl, rfl, rfl, le_refl _⟩)
    rw [World.setPdu_pdus, Function.update_of_ne hab]
    exact (Function.update_of_ne hab ..).trans hcmd
  have hs₁ := hkeep.serving hi hr
  have hop : (p.asDataOut cmd ttt offset len last).opcode = iscsiPduDataOut := by
    unfold Pdu.opcode
    rw [byte_asDataOut, hp, byte_freshPdu]
    rfl
  have htag : (p.asDataOut cmd ttt offset len last).tag = k := by
    rw [asDataOut_tag p cmd ttt offset len last rfl, hqtag]
  have hstay₁ := hs₁.staying a k hstay
  obtain ⟨hs₂, _⟩ := hs₁.inv.queue hserves hs₁.noRisk (hkeep.notMem_addrs hi.fresh)
    (Nat.lt_succ_self _) hw₁b
    (by rw [asDataOut_length, hp, freshPdu_length, hkeep.headerDigest])
    (fun hc => by rw [hop] at hc; cases hc)
    (fun _ => by
      rw [htag]
      exact ⟨⟨a, hstay₁.1, hstay₁.2.1⟩, fun hrk => hk (hs₁.risky k hrk)⟩) hq
  obtain ⟨w₂', henq, hserve⟩ := iscsiAddToOutqueue_cases hq
  obtain ⟨_, _, _, _, hframe, _⟩ := enqueue_spec
    (notMem_outqueue (hkeep.notMem_addrs hi.fresh)) henq
  have hsame : w₂'.allocs = w.allocs.drop 2 ∧ w₂'.iscsi.session = w.iscsi.session := by
    rw [hframe]
    exact ⟨rfl, rfl⟩
  have hserved : ServiceKeeps w₂' w₂ := by
    rcases hserve with rfl | hserve
    · exact .refl _
    · exact .of_run (hserves _ _ hserve)
  refine ⟨rfl, hs₁.trans hs₂, hserved.allocs.trans hsame.1, ?_⟩
  rw [hserved.segment]
  exact congrArg (·.targetMaxRecvDataSegmentLength) hsame.2

/-- **The DATA-OUTs of a burst are queued**, for a command that has not expired. -/
theorem OwnerInv.sendDataOut (hserves : Serves service) {ttt : UInt32} :
    ∀ {fuel : Nat} {offset len : UInt32} {w w' : World} {r : Int},
    OwnerInv w → w.NoRisk → w.Staying a k → ¬w.Risky k →
    (∀ b ∈ w.allocs.take
      (2 * dataOutTurns fuel w.iscsi.targetMaxRecvDataSegmentLength len), b = true) →
    iscsiSendDataOut service fuel w a ttt offset len = .ok (r, w') → Serving w w'
  | fuel, offset, len, w, w', r, hi, hr, hstay, hk, hal, h => by
    unfold iscsiSendDataOut at h
    split at h
    swap
    · obtain ⟨_, rfl⟩ := Prod.mk.inj (Except.ok.inj h)
      exact .refl hi hr
    rename_i hlen
    cases fuel with
    | zero => cases h
    | succ fuel =>
      simp only at h
      obtain ⟨⟨sent, w₁⟩, h₁, h⟩ := Outcome.bind_eq_ok.1 h
      have hturns : dataOutTurns (fuel + 1) w.iscsi.targetMaxRecvDataSegmentLength len =
          1 + dataOutTurns fuel w.iscsi.targetMaxRecvDataSegmentLength
            (len - min len w.iscsi.targetMaxRecvDataSegmentLength) := by
        rw [dataOutTurns, if_pos hlen]
      rw [hturns, show ∀ n, 2 * (1 + n) = 2 + 2 * n by omega, List.take_add] at hal
      obtain ⟨rfl, hs, hallocs, hseg⟩ := hi.sendOneDataOut hserves hr hstay hk
        (fun b hb => hal b (List.mem_append_left _ hb)) h₁
      rw [if_pos rfl] at h
      refine hs.trans (sendDataOut hserves hs.inv hs.noRisk (hs.staying a k hstay)
        (fun hrk => hk (hs.risky k hrk)) (fun b hb => ?_) h)
      rw [hallocs, hseg] at hb
      exact hal b (List.mem_append_right _ hb)

/-- The length of the unsolicited data is the one the command was submitted with. -/
theorem unsolicitedLen_eq {w₁ w₂ : World} {p q : Pdu} {t : TaskPtr} (ha : a ∉ w.iscsi.outqueue)
    (hp : w.pdus a = some p) (hexp : p.expxferlen = (w.tasks t).expxferlen)
    (hlen : p.payloadLen = (immediateDataLen w.iscsi (w.tasks t)).toNat)
    (henq : enqueue w a = .ok w₁) (hkeep : ServiceKeeps w₁ w₂) (hq : w₂.pdus a = some q) :
    min q.expxferlen w₂.iscsi.firstBurstLength - UInt32.ofNat q.payloadLen =
        unsolicitedLen w.iscsi (w.tasks t) ∧
      w₂.iscsi.targetMaxRecvDataSegmentLength = w.iscsi.targetMaxRecvDataSegmentLength ∧
      w₂.allocs = w.allocs := by
  obtain ⟨_, q₁, hp', hq₁, hframe, _⟩ := enqueue_spec ha henq
  obtain rfl : p = _ := Option.some.inj (hp.symm.trans hp')
  have hsame : q₁.expxferlen = p.expxferlen ∧ q₁.payloadLen = p.payloadLen := by
    obtain ⟨rfl, _⟩ | ⟨_, _, _, rfl⟩ := hq₁ <;> exact ⟨rfl, rfl⟩
  have hses : w₁.iscsi.session = w.iscsi.session ∧ w₁.allocs = w.allocs ∧
      w₁.pdus a = some q₁ := by
    rw [hframe]
    exact ⟨rfl, rfl, Function.update_self ..⟩
  obtain ⟨q₁', hq₁', hreq⟩ := hkeep.pdus a q hq
  obtain rfl : q₁ = q₁' := Option.some.inj (hses.2.2.symm.trans hq₁')
  have hfirst : w₂.iscsi.firstBurstLength = w.iscsi.firstBurstLength :=
    hkeep.firstBurst.trans (congrArg (·.firstBurstLength) hses.1)
  refine ⟨?_, hkeep.segment.trans (congrArg (·.targetMaxRecvDataSegmentLength) hses.1),
    hkeep.allocs.trans hses.2.1⟩
  rw [hreq.expxferlen, hreq.payloadLen, hsame.1, hsame.2, hexp, hlen, hfirst, UInt32.ofNat_toNat]
  rfl

/-- A command is queued, with the unsolicited data that follows it. -/
theorem OwnerInv.submitCommand (hserves : Serves service) {t : TaskPtr} {r : Int} {p : Pdu}
    (hi : OwnerInv w) (hr : w.NoRisk) (hk : ¬w.Risky p.tag) (ha : a ∉ w.iscsi.addrs)
    (hb : a < w.brk) (hp : w.pdus a = some p) (hop : p.opcode = iscsiPduScsiRequest)
    (hflag : p.hasFlag iscsiPduDeleteWhenSent = false)
    (hsize : iscsiHeaderSize w.iscsi.headerDigest ≤ p.outdata.length)
    (hexp : p.expxferlen = (w.tasks t).expxferlen)
    (hlen : p.payloadLen = (immediateDataLen w.iscsi (w.tasks t)).toNat)
    (hal : ∀ b ∈ w.allocs.take (2 * unsolicitedTurns w.iscsi (w.tasks t)), b = true)
    (h : submitCommand service w a t = .ok (r, w')) : Serving w w' := by
  unfold Libiscsi.submitCommand at h
  obtain ⟨w₂, hq, h⟩ := Outcome.bind_eq_ok.1 h
  obtain ⟨hs, hstay⟩ := hi.queue hserves hr ha hb hp hsize (fun _ => hflag)
    (fun hc => by rw [hop] at hc; cases hc) hq
  split at h
  swap
  · obtain ⟨_, rfl⟩ := Prod.mk.inj (Except.ok.inj h)
    exact hs
  rename_i hmore
  obtain ⟨⟨s, w₃⟩, hun, h⟩ := Outcome.bind_eq_ok.1 h
  obtain ⟨_, rfl⟩ := Prod.mk.inj (Except.ok.inj h)
  obtain ⟨w₁, henq, hserve⟩ := iscsiAddToOutqueue_cases hq
  have hkeep : ServiceKeeps w₁ w₂ := by
    rcases hserve with rfl | hserve
    · exact .refl _
    · exact .of_run (hserves _ _ hserve)
  unfold iscsiSendUnsolicitedDataOut at hun
  obtain ⟨q₂, hq₂, hun⟩ := Outcome.bind_eq_ok.1 hun
  rw [World.deref_eq_ok] at hq₂
  obtain ⟨hunlen, hseg, hallocs⟩ :=
    unsolicitedLen_eq (notMem_outqueue ha) hp hexp hlen henq hkeep hq₂
  simp only [hunlen] at hun
  refine hs.trans (sendDataOut hserves hs.inv hs.noRisk (hstay hop)
    (fun hrk => hk (hs.risky _ hrk)) (fun b hb => hal b ?_) hun)
  rw [unsolicitedTurns, if_pos hmore]
  rwa [hseg, hallocs] at hb

end

end Libiscsi
