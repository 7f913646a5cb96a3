import Libiscsi.DataOutSubmit

/-!
# No DATA-OUT without its command

A command may leave the queues while DATA-OUTs of it are queued or being sent: its response
arrives, it expires in `outqueue`, or it is cancelled while it waits for a response
(`complete_leaves_dataOut`). In the runs in which no such command leaves, every DATA-OUT has its
command in one of the queues (`dataOut_owned`).
-/

namespace Libiscsi

section
variable {service : World → Res World} {w w' : World} {r : Int}

/-! ## Commands and R2Ts -/

/-- **A command is submitted.** -/
theorem OwnerInv.queueCommand (hserves : Serves service) {lun : UInt32} {t : TaskPtr}
    {cb : Option Callback} {privateData : Nat} (hi : OwnerInv w) (hr : w.NoRisk)
    (hk : ¬w.Risky (w.iscsi.itt, some t))
    (hal : ∀ b ∈ (w.allocs.drop 2).take (2 * unsolicitedTurns w.iscsi (w.tasks t)), b = true)
    (h : queueCommand service w lun t cb privateData = .ok (r, w')) : Serving w w' := by
  unfold Libiscsi.queueCommand iscsiIttPostIncrement at h
  simp only at h
  set w₁ := w.modify fun c =>
    { c with itt := if w.iscsi.itt + 1 = 0xffffffff then 0 else w.iscsi.itt + 1 } with hw₁
  have hk₁ : Keeps w w₁ := keeps_modify rfl rfl (.inl rfl) rfl
  have hb₁ : w₁.brk ∉ w₁.iscsi.addrs := hi.fresh
  rcases hal₁ : iscsiAllocatePdu w₁ iscsiPduScsiRequest iscsiPduScsiResponse w.iscsi.itt 0 with
    ⟨_ | a, w₂⟩
  · rw [hal₁] at h
    obtain ⟨_, rfl⟩ := Prod.mk.inj (Except.ok.inj h)
    exact (hk₁.trans (keeps_iscsiAllocatePdu hb₁ hal₁)).serving hi hr
  rw [hal₁] at h
  have hk₂ := hk₁.trans (keeps_iscsiAllocatePdu hb₁ hal₁)
  obtain ⟨rfl, rfl⟩ := iscsiAllocatePdu_some hal₁
  simp only at h
  obtain ⟨w₃, hprep, hsub⟩ := Outcome.bind_eq_ok.1 h
  set fresh := w₁.iscsi.freshPdu iscsiPduScsiRequest iscsiPduScsiResponse w.iscsi.itt 0 with hfresh
  have hframe := prepareCommand_spec (p := fresh) (Function.update_self ..) hprep
  set p := fresh.commandFor (w₁.allocated fresh).iscsi w₁.brk lun t
    ((w₁.allocated fresh).tasks t) cb privateData with hpdef
  have hw₃p : w₃.pdus w.brk = some p := by
    rw [hframe]
    exact Function.update_self ..
  have hk₃ : Keeps w w₃ := by
    refine hk₂.trans ⟨.of_eq ?_ ?_ ?_ ?_ ?_ ?_ (.inl ?_) fun b hb => ?_, ?_, ?_⟩
    · rw [hframe]; rfl
    · rw [hframe]; rfl
    · rw [hframe]; exact le_refl _
    · rw [hframe]; rfl
    · rw [hframe]; exact .refl _
    · rw [hframe]; exact .refl _
    · rw [hframe]; rfl
    · rw [hframe] at hb ⊢
      exact Function.update_of_ne (ne_of_mem_of_not_mem hb (hk₂.notMem_addrs hi.fresh)) ..
    · rw [hframe]; rfl
    · rw [hframe]; rfl
  have hiscsi : w₃.iscsi = w₁.iscsi.setCmdsn (w.iscsi.cmdsn + 1) := by
    rw [hframe]
    rfl
  have htask : w₃.tasks t = { w.tasks t with
      ptr := some w₁.brk, lun, cmdsn := w.iscsi.cmdsn, itt := fresh.itt } := by
    rw [hframe]
    exact Function.update_self ..
  have hallocs : w₃.allocs = w.allocs.drop 2 := by
    rw [hframe]
    rfl
  have hop : p.opcode = iscsiPduScsiRequest := by
    unfold Pdu.opcode
    rw [hpdef, byte_commandFor, hfresh, byte_freshPdu]
    rfl
  have hturns : unsolicitedTurns w₃.iscsi (w₃.tasks t) =
      unsolicitedTurns w.iscsi (w.tasks t) := by
    rw [htask, hiscsi]
    rfl
  have hs₃ := hk₃.serving hi hr
  refine hs₃.trans (hs₃.inv.submitCommand hserves (p := p) hs₃.noRisk (fun hrk => hk ?_)
    (hk₃.notMem_addrs hi.fresh) ?_ hw₃p hop ?_ ?_ ?_ ?_ ?_ hsub)
  · have hold := hs₃.risky _ hrk
    rwa [hpdef, commandFor_tag] at hold
  · rw [hframe]
    exact Nat.lt_succ_self _
  · unfold Pdu.hasFlag
    rw [hpdef, commandFor_flags, hfresh, freshPdu_flags]
    rfl
  · rw [hk₃.headerDigest, hpdef, commandFor_length]
    exact le_of_eq (freshPdu_length ..).symm
  · rw [hpdef, commandFor_expxferlen, htask]
    rfl
  · rw [hpdef, commandFor_payloadLen, htask, hiscsi]
    rfl
  · rw [hallocs, hturns]
    exact hal

/-- **`iscsi_scsi_command_async` keeps the invariant** while no reconnect is in progress. -/
theorem OwnerInv.command (hserves : Serves service) {lun : UInt32} {t : TaskPtr}
    {cb : Option Callback} {d : Option ScsiIovec} {privateData : Nat} (hi : OwnerInv w)
    (hr : w.NoRisk) (hk : ¬w.Risky (w.iscsi.itt, some t)) (hal : w.DataOutsAllocated t d)
    (h : iscsiScsiCommandAsync service w lun t cb d privateData = .ok (r, w')) :
    Serving w w' := by
  unfold iscsiScsiCommandAsync at h
  rw [hi.olds] at h
  simp only at h
  unfold commandHere at h
  split at h
  · obtain ⟨_, rfl⟩ := Prod.mk.inj (Except.ok.inj h)
    exact .refl hi hr
  split at h
  · obtain ⟨_, rfl⟩ := Prod.mk.inj (Except.ok.inj h)
    exact .refl hi hr
  cases d with
  | none => exact hi.queueCommand hserves hr hk hal h
  | some iov =>
    rw [World.malloc_eq] at h
    simp only at h
    have hk₁ := keeps_allocs (w := w) w.allocs.tail
    split at h
    · obtain ⟨_, rfl⟩ := Prod.mk.inj (Except.ok.inj h)
      exact hk₁.serving hi hr
    · have hk₂ := hk₁.trans (keeps_modifyTask (w := { w with allocs := w.allocs.tail }) t
        fun task => scsiTaskSetIovOut task [iov])
      have hs₂ := hk₂.serving hi hr
      refine hs₂.trans (hs₂.inv.queueCommand hserves hs₂.noRisk (fun hrk => hk (hs₂.risky _ hrk))
        (fun b hb => hal b ?_) h)
      have htask : unsolicitedTurns w.iscsi (scsiTaskSetIovOut (w.tasks t) [iov]) =
          unsolicitedTurns w.iscsi (w.tasks t) := rfl
      simp only [World.modifyTask_iscsi, World.modifyTask_tasks, Function.update_self,
        World.modifyTask_allocs, htask, List.drop_tail] at hb
      exact hb

/-- The condition on an R2T that asks for data: it is for a SCSI command that has not expired, no
other one with its tag is at risk, and the DATA-OUTs can be allocated. -/
def World.R2tGood (w : World) (a : Addr) (inPdu : InPdu) : Prop :=
  0 < scsiGetUint32 inPdu.hdr 44 →
    (∃ k, w.CommandAt a k ∧ ¬w.Risky k) ∧
      (∀ p, w.pdus a = some p → p.expired w.now = false) ∧
      ∀ b ∈ w.allocs.take (2 * dataOutTurns (scsiGetUint32 inPdu.hdr 44).toNat
        w.iscsi.targetMaxRecvDataSegmentLength (scsiGetUint32 inPdu.hdr 44)), b = true

/-- **`iscsi_process_r2t` keeps the invariant.** -/
theorem OwnerInv.r2t (hserves : Serves service) {a : Addr} {inPdu : InPdu} (hi : OwnerInv w)
    (hr : w.NoRisk) (ha : a ∈ w.iscsi.waitpdu) (hgood : w.R2tGood a inPdu)
    (h : iscsiProcessR2t service w a inPdu = .ok (r, w')) : Serving w w' := by
  unfold iscsiProcessR2t at h
  obtain ⟨p, hp, h⟩ := Outcome.bind_eq_ok.1 h
  rw [World.deref_eq_ok] at hp
  obtain ⟨⟨s, w₂⟩, hsend, h⟩ := Outcome.bind_eq_ok.1 h
  obtain ⟨_, rfl⟩ := Prod.mk.inj (Except.ok.inj h)
  set w₁ := w.setPdu a { p with datasn := 0 } with hw₁
  have hkeep : Keeps w w₁ := keeps_setPdu_alike hp ⟨rfl, rfl, rfl, rfl, rfl, le_refl _⟩
  have hs₁ := hkeep.serving hi hr
  by_cases hlen : 0 < scsiGetUint32 inPdu.hdr 44
  · obtain ⟨⟨k, hc, hk⟩, hexp, hal⟩ := hgood hlen
    have hstay : w.Staying a k := ⟨List.mem_append_right _ ha, hc, hexp⟩
    exact hs₁.trans (hs₁.inv.sendDataOut hserves hs₁.noRisk (hs₁.staying a k hstay)
      (fun hrk => hk (hs₁.risky k hrk)) hal hsend)
  · unfold iscsiSendDataOut at hsend
    rw [if_neg hlen] at hsend
    obtain ⟨_, rfl⟩ := Prod.mk.inj (Except.ok.inj hsend)
    exact hs₁

/-! ## Other requests -/

/-- The PDU is neither a SCSI command nor a DATA-OUT. -/
def Pdu.Plain (p : Pdu) : Prop := p.opcode ≠ iscsiPduScsiRequest ∧ p.opcode ≠ iscsiPduDataOut

/-- Adding data to a PDU in none of the queues. -/
theorem keeps_addData {a : Addr} {data : List UInt8} {ret : Int} (ha : a ∉ w.iscsi.addrs)
    (h : addData w a data = .ok (ret, w')) : Keeps w w' := by
  unfold addData at h
  split at h
  swap
  · obtain ⟨_, rfl⟩ := Prod.mk.inj (Except.ok.inj h)
    exact .refl w
  unfold iscsiPduAddData at h
  rename_i hlen
  rw [if_neg (by omega), World.malloc_eq] at h
  simp only at h
  obtain ⟨p, _, h⟩ := Outcome.bind_eq_ok.1 h
  have hk := keeps_allocs (w := w) w.allocs.tail
  split at h
  · obtain ⟨_, rfl⟩ := Prod.mk.inj (Except.ok.inj h)
    exact hk.trans (keeps_setPdu (w := { w with allocs := w.allocs.tail }) ha _)
  · obtain ⟨_, rfl⟩ := Prod.mk.inj (Except.ok.inj h)
    exact hk.trans (keeps_setPdu (w := { w with allocs := w.allocs.tail }) ha _)

/-- A request that was not prepared is freed. -/
theorem keeps_dropRequest {a : Addr} (ha : a ∉ w.iscsi.addrs)
    (h : dropRequest w a = .ok (r, w')) : Keeps w w' := by
  unfold dropRequest at h
  obtain ⟨w₁, h₁, h⟩ := Outcome.bind_eq_ok.1 h
  obtain ⟨_, rfl⟩ := Prod.mk.inj (Except.ok.inj h)
  obtain ⟨_, rfl⟩ := iscsiFreePdu_eq_ok.1 h₁
  exact keeps_release (notMem_queues ha)

/-- A request whose data was added, or that was dropped, is queued by `rest`. -/
theorem OwnerInv.request (hserves : Serves service) {opcode responseOpcode : UInt8}
    {itt flags : UInt32} {p : Pdu} {a : Addr} {data : List UInt8} {ret : Int} {w₁ w₂ : World}
    (hi : OwnerInv w) (hr : w.NoRisk)
    (hal : iscsiAllocatePdu w opcode responseOpcode itt flags = (some a, w₁))
    (hlen : p.outdata.length = iscsiHeaderSize w.iscsi.headerDigest) (hplain : p.Plain)
    (hadd : addData (w₁.setPdu a p) a data = .ok (ret, w₂)) :
    Serving w w₂ ∧ a ∉ w₂.iscsi.addrs ∧
      (ret = 0 → ∀ (f : Context → Context) (w₃ : World), Keeps w₂ (w₂.modify f) →
        iscsiQueuePdu service (w₂.modify f) a = .ok w₃ → Serving w w₃) := by
  have hsize := iscsiHeaderSize_ge w.iscsi.headerDigest
  have hk₁ := keeps_iscsiAllocatePdu hi.fresh hal
  obtain ⟨rfl, rfl⟩ := iscsiAllocatePdu_some hal
  have hfresh := hk₁.notMem_addrs hi.fresh
  have hk₂ := hk₁.trans (keeps_setPdu hfresh p)
  have hk₃ := hk₂.trans (keeps_addData (hk₂.notMem_addrs hi.fresh) hadd)
  have hnot := hk₃.notMem_addrs hi.fresh
  have hs₃ := hk₃.serving hi hr
  refine ⟨hs₃, hnot, fun hret f w₃ hkf hq => ?_⟩
  obtain ⟨_, _, hbrk, hdata⟩ := addData_spec (p := p) (notMem_outqueue (hk₂.notMem_addrs hi.fresh))
    (Function.update_self ..) (by omega) hadd
  obtain ⟨q, hq₃, _, hqlen, hqbyte⟩ := hdata hret
  have hop : q.opcode = p.opcode := by
    unfold Pdu.opcode
    rw [hqbyte 0 (by omega) (by omega)]
  have hs₄ := hkf.serving hs₃.inv hs₃.noRisk
  refine (hs₃.trans hs₄).trans (hs₄.inv.queue hserves hs₄.noRisk (hkf.notMem_addrs hnot) ?_
    (p := q) hq₃ ?_ (fun hc => absurd (hop.symm.trans hc) hplain.1)
    (fun hc => absurd (hop.symm.trans hc) hplain.2) hq).1
  · rw [World.modify_brk, hbrk]
    exact Nat.lt_succ_self _
  · rw [hkf.headerDigest, hk₃.headerDigest]
    omega

/-- `prepare` keeps the length, and makes no SCSI command or DATA-OUT of the PDU. -/
def PreparesPlain (opcode : UInt8) (prepare : Pdu → Pdu) : Prop :=
  ∀ p : Pdu, 48 ≤ p.outdata.length → byte p.outdata 0 = opcode →
    (prepare p).outdata.length = p.outdata.length ∧ (prepare p).Plain

/-- **Another request keeps the invariant.** -/
theorem OwnerInv.sendRequest (hserves : Serves service) {opcode responseOpcode : UInt8}
    {itt flags : UInt32} {prepare : Pdu → Pdu} {data : List UInt8}
    {log : World → Addr → Res World} (hlog : LogsOnly log)
    (hprep : PreparesPlain opcode prepare) (hi : OwnerInv w) (hr : w.NoRisk)
    (h : sendRequest service w opcode responseOpcode itt flags prepare data log = .ok (r, w')) :
    Serving w w' := by
  have hsize := iscsiHeaderSize_ge w.iscsi.headerDigest
  unfold Libiscsi.sendRequest at h
  rcases hal : iscsiAllocatePdu w opcode responseOpcode itt flags with ⟨_ | a, w₁⟩
  · rw [hal] at h
    obtain ⟨_, rfl⟩ := Prod.mk.inj (Except.ok.inj h)
    exact (keeps_iscsiAllocatePdu hi.fresh hal).serving hi hr
  rw [hal] at h
  simp only at h
  obtain ⟨fresh, hfresh, h⟩ := Outcome.bind_eq_ok.1 h
  have hfreshPdu := iscsiAllocatePdu_deref hal hfresh
  have hflen : fresh.outdata.length = iscsiHeaderSize w.iscsi.headerDigest := by
    rw [hfreshPdu]
    exact freshPdu_length ..
  have hslen : (fresh.setCmdsn w₁.iscsi.cmdsn).outdata.length = fresh.outdata.length :=
    length_scsiSetUint32 ..
  obtain ⟨hplen, hplain⟩ := hprep (fresh.setCmdsn w₁.iscsi.cmdsn) (by omega) (by
    rw [Pdu.byte_setCmdsn _ _ (.inl (by omega)), hfreshPdu]
    exact byte_freshPdu ..)
  obtain ⟨⟨ret, w₃⟩, hadd, hrest⟩ := Outcome.bind_eq_ok.1 h
  obtain ⟨hs₃, hnot, hqueue⟩ := hi.request hserves hr hal (by omega) hplain hadd
  simp only at hrest
  split at hrest
  · exact hs₃.trans ((keeps_dropRequest hnot hrest).serving hs₃.inv hs₃.noRisk)
  · rename_i hret
    unfold queueRequest at hrest
    obtain ⟨w₄, hq, hrest⟩ := Outcome.bind_eq_ok.1 hrest
    obtain ⟨w₅, hlogged, hdone⟩ := Outcome.bind_eq_ok.1 hrest
    obtain rfl : w₅ = _ := hlog _ _ _ hlogged
    obtain ⟨_, rfl⟩ := Prod.mk.inj (Except.ok.inj hdone)
    exact hqueue (not_not.1 hret) id _ (.refl _) hq

/-- A request that is made immediate, with other bytes of the header written after that. -/
theorem preparesPlain {opcode : UInt8} {prepare : Pdu → Pdu}
    (hop : opcode = iscsiPduNopOut ∨ opcode = iscsiPduScsiTaskManagementRequest ∨
      opcode = iscsiPduTextRequest ∨ opcode = iscsiPduLogoutRequest)
    (h : ∀ p : Pdu, (prepare p).outdata.length = p.outdata.length ∧
      byte (prepare p).outdata 0 = byte p.setImmediate.outdata 0) :
    PreparesPlain opcode prepare := by
  intro p hlen hbyte
  refine ⟨(h p).1, ?_⟩
  have hfirst : byte (prepare p).outdata 0 = opcode ||| iscsiPduImmediate := by
    rw [(h p).2, ← hbyte]
    exact byte_set_eq (by omega)
  unfold Pdu.Plain Pdu.opcode
  rw [hfirst]
  rcases hop with rfl | rfl | rfl | rfl <;> decide

theorem keeps_ittPostIncrement (w : World) : Keeps w (iscsiIttPostIncrement w).2 := by
  have hk : Keeps w (w.modify fun c =>
      { c with itt := if w.iscsi.itt + 1 = 0xffffffff then 0 else w.iscsi.itt + 1 }) :=
    keeps_modify rfl rfl (.inl rfl) rfl
  exact hk

/-- **`iscsi_send_target_nop_out` keeps the invariant.** -/
theorem OwnerInv.targetNopOut (hserves : Serves service) {ttt lun : UInt32} (hi : OwnerInv w)
    (hr : w.NoRisk) (h : iscsiSendTargetNopOut service w ttt lun = .ok (r, w')) :
    Serving w w' := by
  unfold iscsiSendTargetNopOut at h
  refine hi.sendRequest hserves logsOnly_logNopOut (preparesPlain (.inl rfl) fun p => ⟨?_, ?_⟩) hr h
  · simp [Pdu.setLun, Pdu.setTtt, Pdu.setPduflags, Pdu.setImmediate, Pdu.setField, Pdu.setByte]
  · simp [Pdu.setLun, Pdu.setTtt, Pdu.setPduflags, Pdu.setImmediate, Pdu.setField, Pdu.setByte,
      byte_scsiSetUint32, byte_scsiSetUint16, byte_set_ne]

/-- **`iscsi_task_mgmt_async` keeps the invariant.** -/
theorem OwnerInv.taskMgmt (hserves : Serves service) {lun ritt rcmdsn : UInt32}
    {function : TaskMgmtFunc} {cb : Option Callback} {privateData : Nat} (hi : OwnerInv w)
    (hr : w.NoRisk)
    (h : iscsiTaskMgmtAsync service w lun function ritt rcmdsn cb privateData = .ok (r, w')) :
    Serving w w' := by
  unfold iscsiTaskMgmtAsync at h
  split at h
  · obtain ⟨_, rfl⟩ := Prod.mk.inj (Except.ok.inj h)
    exact .refl hi hr
  · have hs := (keeps_ittPostIncrement w).serving hi hr
    refine hs.trans (hs.inv.sendRequest hserves logsOnly_logNothing
      (preparesPlain (.inr (.inl rfl)) fun p => ⟨?_, ?_⟩) hs.noRisk h)
    · simp [Pdu.setLun, Pdu.setRitt, Pdu.setRcmdsn, Pdu.setPduflags, Pdu.setImmediate,
        Pdu.setField, Pdu.setByte]
    · simp [Pdu.setLun, Pdu.setRitt, Pdu.setRcmdsn, Pdu.setPduflags, Pdu.setImmediate,
        Pdu.setField, Pdu.setByte, byte_scsiSetUint32, byte_scsiSetUint16, byte_set_ne]

/-- **`iscsi_discovery_async` keeps the invariant.** -/
theorem OwnerInv.discovery (hserves : Serves service) {cb : Option Callback} {privateData : Nat}
    (hi : OwnerInv w) (hr : w.NoRisk)
    (h : iscsiDiscoveryAsync service w cb privateData = .ok (r, w')) : Serving w w' := by
  unfold iscsiDiscoveryAsync at h
  have hs := (keeps_ittPostIncrement w).serving hi hr
  refine hs.trans (hs.inv.sendRequest hserves logsOnly_logNothing
    (preparesPlain (.inr (.inr (.inl rfl))) fun p => ⟨?_, ?_⟩) hs.noRisk h)
  · simp [Pdu.setTtt, Pdu.setPduflags, Pdu.setImmediate, Pdu.setField, Pdu.setByte]
  · simp [Pdu.setTtt, Pdu.setPduflags, Pdu.setImmediate, Pdu.setField, Pdu.setByte,
      byte_scsiSetUint32, byte_set_ne]

/-- **`iscsi_logout_async` keeps the invariant.** -/
theorem OwnerInv.logout (hserves : Serves service) {cb : Option Callback} {privateData : Nat}
    (hi : OwnerInv w) (hr : w.NoRisk)
    (h : iscsiLogoutAsync service w cb privateData = .ok (r, w')) : Serving w w' := by
  unfold iscsiLogoutAsync at h
  simp only at h
  set w₁ := w.modify fun c => { c with loginAttempts := 0 }
  have hk₁ : Keeps w w₁ := keeps_modify rfl rfl (.inl rfl) rfl
  split at h
  · obtain ⟨_, rfl⟩ := Prod.mk.inj (Except.ok.inj h)
    exact hk₁.serving hi hr
  · have hs := (hk₁.trans (keeps_ittPostIncrement w₁)).serving hi hr
    refine hs.trans (hs.inv.sendRequest hserves logsOnly_logNothing
      (preparesPlain (.inr (.inr (.inr rfl))) fun p => ⟨?_, ?_⟩) hs.noRisk h)
    · simp [Pdu.setPduflags, Pdu.setImmediate, Pdu.setByte]
    · simp [Pdu.setPduflags, Pdu.setImmediate, Pdu.setByte, byte_set_ne]

/-- **`iscsi_nop_out_async` keeps the invariant.** -/
theorem OwnerInv.nopOut (hserves : Serves service) {cb : Option Callback} {data : List UInt8}
    {privateData : Nat} (hi : OwnerInv w) (hr : w.NoRisk)
    (h : iscsiNopOutAsync service w cb data privateData = .ok (r, w')) : Serving w w' := by
  unfold iscsiNopOutAsync at h
  split at h
  · obtain ⟨_, rfl⟩ := Prod.mk.inj (Except.ok.inj h)
    exact .refl hi hr
  split at h
  · obtain ⟨_, rfl⟩ := Prod.mk.inj (Except.ok.inj h)
    exact .refl hi hr
  unfold iscsiIttPostIncrement at h
  simp only at h
  set w₀ := w.modify fun c =>
    { c with itt := if w.iscsi.itt + 1 = 0xffffffff then 0 else w.iscsi.itt + 1 }
  have hk₀ : Keeps w w₀ := keeps_modify rfl rfl (.inl rfl) rfl
  have hs₀ := hk₀.serving hi hr
  rcases hal : iscsiAllocatePdu w₀ iscsiPduNopOut iscsiPduNopIn w.iscsi.itt
    iscsiPduDropOnReconnect with ⟨_ | a, w₁⟩
  · rw [hal] at h
    obtain ⟨_, rfl⟩ := Prod.mk.inj (Except.ok.inj h)
    exact hs₀.trans ((keeps_iscsiAllocatePdu hs₀.inv.fresh hal).serving hs₀.inv hs₀.noRisk)
  rw [hal] at h
  simp only at h
  obtain ⟨fresh, hfresh, h⟩ := Outcome.bind_eq_ok.1 h
  obtain ⟨hflen, hfop⟩ : fresh.outdata.length = iscsiHeaderSize w₀.iscsi.headerDigest ∧
      byte fresh.outdata 0 = iscsiPduNopOut := by
    rw [iscsiAllocatePdu_deref hal hfresh]
    exact ⟨freshPdu_length .., byte_freshPdu ..⟩
  set p := (((({ fresh with callback := cb, privateData } : Pdu).setPduflags 0x80).setTtt
    0xffffffff).setLun 0).setCmdsn w₁.iscsi.cmdsn with hpdef
  have hplen : p.outdata.length = iscsiHeaderSize w₀.iscsi.headerDigest := by
    rw [hpdef]
    simp [Pdu.setCmdsn, Pdu.setLun, Pdu.setTtt, Pdu.setPduflags, Pdu.setField, Pdu.setByte, hflen]
  have hplain : p.Plain := by
    have hpop : byte p.outdata 0 = iscsiPduNopOut := by
      rw [hpdef]
      simp [Pdu.setLun, Pdu.setTtt, Pdu.setPduflags, Pdu.setField, Pdu.setByte,
        byte_scsiSetUint32, byte_scsiSetUint16, byte_set_ne, hfop]
    unfold Pdu.Plain Pdu.opcode
    rw [hpop]
    decide
  obtain ⟨⟨ret, w₃⟩, hadd, hrest⟩ := Outcome.bind_eq_ok.1 h
  simp only at hrest
  split at hrest
  · obtain ⟨hs₃, hnot, _⟩ := hs₀.inv.request hserves hs₀.noRisk hal hplen hplain hadd
    exact hs₀.trans (hs₃.trans ((keeps_dropRequest hnot hrest).serving hs₃.inv hs₃.noRisk))
  · rename_i hret
    obtain ⟨w₄, hq, hrest⟩ := Outcome.bind_eq_ok.1 hrest
    obtain ⟨w₅, hlogged, hdone⟩ := Outcome.bind_eq_ok.1 hrest
    obtain rfl : w₅ = _ := logsOnly_logNopOut _ _ _ hlogged
    obtain ⟨_, rfl⟩ := Prod.mk.inj (Except.ok.inj hdone)
    obtain ⟨_, _, hrun⟩ := hs₀.inv.request hserves hs₀.noRisk hal hplen hplain hadd
    have hs₄ := hrun (not_not.1 hret) _ _ (keeps_modify rfl rfl (.inl rfl) rfl) hq
    have hs := hs₀.trans hs₄
    exact hs.trans ((keeps_modify rfl rfl (.inl rfl) rfl).serving hs.inv hs.noRisk)

end

/-! ## Runs -/

/-- What may happen on a connection: what `CmdsnAct` lists, and an R2T. -/
inductive OwnerAct where
  | base (act : CmdsnAct)
  /-- An R2T arrives for a PDU of `waitpdu`. -/
  | r2t (a : Addr) (inPdu : InPdu)

/-- The steps of a connection. -/
def OwnerStep (service : World → Res World) : OwnerAct → World → World → Prop
  | .base act, w, w' => CmdsnStep service act w w'
  | .r2t a inPdu, w, w' => a ∈ w.iscsi.waitpdu ∧
    ∃ r, iscsiProcessR2t service w a inPdu = .ok (r, w')

/-- The conditions under which a step leaves no DATA-OUT without its command. What serves the
socket scans for timeouts, so no command with a DATA-OUT may expire unless the test for a data-out
command keeps it in `waitpdu`; the DATA-OUTs of a command can be allocated; and a command that is
answered or cancelled has no DATA-OUT that stays. -/
def OwnerGood : OwnerAct → World → Prop
  | .base (.command _ t _ d _), w =>
    w.NoRisk ∧ ¬w.Risky (w.iscsi.itt, some t) ∧ w.DataOutsAllocated t d
  | .base (.cancelLun lun), w => w.CurrentKept (taskOfLun lun)
  | .base (.cancelTask t), w => w.CancelsWhole (w.tasks t).itt
  | .base .cancelPdus, w => w.CurrentDone
  | .base (.complete a _), w => ∀ k, w.CommandAt a k → ¬w.DataOut k
  | .base .write, _ => True
  | .base .environment, _ => True
  | .base _, w => w.NoRisk
  | .r2t a inPdu, w => w.NoRisk ∧ w.R2tGood a inPdu

/-- What leaves the queues alone keeps the invariant. -/
theorem OwnerInv.sameQueues {w w' : World} (hi : OwnerInv w) (h : SameQueues w w') :
    OwnerInv w' := by
  have hcommand : ∀ k, w.Command k → w'.Command k := fun k hk => by
    simpa [World.Command, World.CommandAt, h.outqueue, h.waitpdu, h.pdus] using hk
  have hdataOut : ∀ k, w'.DataOut k → w.DataOut k := fun k hk => by
    simpa [World.DataOut, h.outqueue, h.current, h.pdus] using hk
  have haddrs : w'.iscsi.addrs = w.iscsi.addrs := by
    simp [Context.addrs, h.outqueue, h.waitpdu, h.current]
  refine ⟨h.olds.trans hi.olds, ?_, ?_, ?_, ?_, ?_, ?_, ?_, fun k hk =>
    hcommand k (hi.owned k (hdataOut k hk))⟩
  · rw [h.outqueue, h.waitpdu]
    exact hi.nodup
  · rw [haddrs, h.brk]
    exact hi.below
  · rw [h.current, h.outqueue]
    exact hi.current
  · rw [haddrs, h.pdus]
    exact hi.live
  · rw [h.outqueue, h.pdus, h.headerDigest]
    exact hi.size
  · rw [h.outqueue, h.waitpdu, h.pdus]
    exact hi.waits
  · rw [h.current, h.waitpdu, h.pdus]
    exact hi.sent

/-- **Every good step keeps the invariant.** -/
theorem OwnerInv.step {service : World → Res World} (hserves : Serves service) {w w' : World}
    {act : OwnerAct} (hi : OwnerInv w) (h : OwnerStep service act w w') (hgood : OwnerGood act w) :
    OwnerInv w' := by
  cases act with
  | r2t a inPdu =>
    obtain ⟨ha, r, h⟩ := h
    exact (hi.r2t hserves hgood.1 ha hgood.2 h).inv
  | base act =>
    cases act with
    | command lun t cb d privateData =>
      obtain ⟨r, h⟩ := h
      exact (hi.command hserves hgood.1 hgood.2.1 hgood.2.2 h).inv
    | nopOut cb data privateData =>
      obtain ⟨r, h⟩ := h
      exact (hi.nopOut hserves hgood h).inv
    | targetNopOut ttt lun =>
      obtain ⟨r, h⟩ := h
      exact (hi.targetNopOut hserves hgood h).inv
    | taskMgmt lun function ritt rcmdsn cb privateData =>
      obtain ⟨r, h⟩ := h
      exact (hi.taskMgmt hserves hgood h).inv
    | discovery cb privateData =>
      obtain ⟨r, h⟩ := h
      exact (hi.discovery hserves hgood h).inv
    | logout cb privateData =>
      obtain ⟨r, h⟩ := h
      exact (hi.logout hserves hgood h).inv
    | write =>
      obtain ⟨r, h⟩ := h
      exact (hi.write h).1
    | timeoutScan => exact (hi.timeoutScan hgood h).1
    | cancelLun lun => exact hi.cancelLun hgood h
    | cancelTask t =>
      obtain ⟨r, h⟩ := h
      exact hi.cancelTask hgood h
    | cancelPdus => exact hi.cancelPdus hgood h
    | complete a status => exact hi.complete h.1 hgood h.2
    | environment => exact hi.sameQueues h

/-- **Every run of good steps keeps the invariant.** -/
theorem OwnerInv.run {service : World → Res World} (hserves : Serves service) {w w' : World}
    (hi : OwnerInv w) (hrun : GoodRun (OwnerStep service) OwnerGood w w') : OwnerInv w' := by
  induction hrun with
  | refl => exact hi
  | tail _ hstep ih =>
    obtain ⟨act, hstep, hgood⟩ := hstep
    exact ih.step hserves hstep hgood

/-- A connection on which nothing has been sent has no DATA-OUT. -/
theorem World.Connected.ownerInv {w : World} (h : w.Connected) : OwnerInv w := by
  obtain ⟨holds, hout, hwait, hcur⟩ := h
  refine ⟨holds, ?_, ?_, ?_, ?_, ?_, ?_, ?_, ?_⟩ <;>
    simp [Context.addrs, World.DataOut, hout, hwait, hcur]

/-- The command of every DATA-OUT in `outqueue` or `outqueue_current`, with the same tag and the
same task, is in `outqueue` or `waitpdu`. -/
def World.DataOutsOwned (w : World) : Prop :=
  ∀ d ∈ w.iscsi.outqueueCurrent.toList ++ w.iscsi.outqueue, ∀ p, w.pdus d = some p →
    p.opcode = iscsiPduDataOut → ∃ b ∈ w.iscsi.outqueue ++ w.iscsi.waitpdu, ∃ q,
      w.pdus b = some q ∧ q.opcode = iscsiPduScsiRequest ∧ q.itt = p.itt ∧
        q.scsiCbdata.task = p.scsiCbdata.task

/-- **No DATA-OUT without its command** in every state that a run of good steps reaches. -/
theorem dataOut_owned {service : World → Res World} (hserves : Serves service) {w₀ w : World}
    (h₀ : w₀.Connected) (hrun : GoodRun (OwnerStep service) OwnerGood w₀ w) :
    w.DataOutsOwned := by
  intro d hd p hp hop
  obtain ⟨b, hb, q, hq, hqop, htag⟩ :=
    (h₀.ownerInv.run hserves hrun).owned p.tag ⟨d, hd, p, hp, hop, rfl⟩
  obtain ⟨hitt, htask⟩ := Prod.mk.inj htag
  exact ⟨b, hb, q, hq, hqop, hitt, htask⟩

/-! ## A response that arrives before the data was sent -/

/-- A session in which data is sent unsolicited, four bytes at a time, and every task is a write
of eight bytes. -/
def writing (sends : List SendResult) : World :=
  { loggedIn sends with
    iscsi := { (loggedIn sends).iscsi with
      useInitialR2t := false
      useImmediateData := false
      firstBurstLength := 8
      targetMaxRecvDataSegmentLength := 4 }
    tasks := fun _ => { xferDir := .write, expxferlen := 8, cdb := [scsiOpcodeWrite10] } }

/-- A write that is sent at once, with its data queued. -/
theorem dataOut_owned_one : ∃ w, submitTask (writing [.accepted 47]) 0 = .ok w ∧
    w.iscsi.outqueueCurrent = some 1 ∧ w.iscsi.outqueue = [2] ∧ w.DataOutsOwned := by
  have hrun : (submitTask (writing [.accepted 47]) 0).toOption.map
      (fun w => (w.iscsi.outqueueCurrent, w.iscsi.outqueue)) = some (some 1, [2]) := by
    decide +kernel
  rcases h : submitTask (writing [.accepted 47]) 0 with _ | w
  · rw [h] at hrun
    cases hrun
  · rw [h] at hrun
    obtain ⟨hcur, hout⟩ := Prod.mk.inj (Option.some.inj hrun)
    refine ⟨w, rfl, hcur, hout, dataOut_owned writeService_serves
      (show (writing [.accepted 47]).Connected from ⟨rfl, rfl, rfl, rfl⟩)
      (.single (a := .base (.command 0 0 none none 0)) ⟨submitTask_step h, ?_, ?_, ?_⟩)⟩
    · rintro k ⟨d, hd, _⟩
      cases hd
    · rintro ⟨b, q, hq, _⟩
      cases hq
    · simp [World.DataOutsAllocated, writing, loggedIn]

/-- The command is sent but none of its data, and then its response arrives. -/
def earlyResponse : Res World := do
  let w ← submitTask (writing [.accepted 47]) 0
  completePdu (w.modify (·.setWaitpdu (w.iscsi.waitpdu.erase 0))) 0 scsiStatusCheckCondition

/-- The response to a write arrives while its data is queued: the command is completed and freed,
and the two DATA-OUTs are still there, with no command in the queues at all. -/
theorem complete_leaves_dataOut :
    ¬∀ (service : World → Res World) (w₀ w : World), Serves service → w₀.Connected →
      Run (OwnerStep service) w₀ w → w.DataOutsOwned := by
  intro hall
  have hsent : (submitTask (writing [.accepted 47]) 0).toOption.map
      (fun w => w.iscsi.waitpdu) = some [0] := by decide +kernel
  have hrun : earlyResponse.toOption.map (fun w =>
      (w.iscsi.outqueueCurrent, w.iscsi.outqueue, w.iscsi.waitpdu, (w.pdus 1).map Pdu.opcode,
        (w.pdus 2).map Pdu.opcode)) =
      some (some 1, [2], [], some iscsiPduDataOut, some iscsiPduDataOut) := by decide +kernel
  rcases h : earlyResponse with _ | w
  · rw [h] at hrun
    cases hrun
  rw [h] at hrun
  simp only [Except.toOption, Option.map_some, Option.some.injEq, Prod.mk.injEq,
    Option.map_eq_some_iff] at hrun
  obtain ⟨hcur, hout, hwait, ⟨p, hp, hpop⟩, ⟨q, hq, hqop⟩⟩ := hrun
  unfold earlyResponse at h
  obtain ⟨w₁, h₁, h⟩ := Outcome.bind_eq_ok.1 h
  rw [h₁] at hsent
  have hmem : 0 ∈ w₁.iscsi.waitpdu := by
    have hwait₁ : w₁.iscsi.waitpdu = [0] := Option.some.inj hsent
    rw [hwait₁]
    exact List.mem_singleton_self 0
  have howned := hall writeService (writing [.accepted 47]) w writeService_serves
    ⟨rfl, rfl, rfl, rfl⟩
    ((Run.single (a := .base (.command 0 0 none none 0)) (submitTask_step h₁)).tail
      ⟨.base (.complete 0 scsiStatusCheckCondition), hmem, h⟩)
  obtain ⟨b, hb, c, hc, hcop, _⟩ := howned 1 (by simp [hcur]) p hp hpop
  rw [hout, hwait, List.append_nil, List.mem_singleton] at hb
  subst hb
  obtain rfl := Option.some.inj (hc.symm.trans hq)
  rw [hqop] at hcop
  exact absurd hcop (by decide)

end Libiscsi
