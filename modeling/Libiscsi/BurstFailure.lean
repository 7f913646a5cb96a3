import Libiscsi.CmdsnCorrect
import Libiscsi.TimeoutCorrect

/-!
# A burst of DATA-OUTs that fails

When a DATA-OUT cannot be allocated, `iscsi_send_data_out` unlinks the command from both queues,
calls its callback and frees it. `ISCSI_LIST_REMOVE` dereferences the head of the list it is given,
and the DATA-OUTs that were queued before stay where they are. So the failure is clean exactly when
both queues have a PDU and none of the earlier DATA-OUTs is left in `outqueue`
(`burstFailure_clean_iff`).
-/

namespace Libiscsi

section
variable (service : World → Res World)

/-- The turns of the loop of `iscsi_send_data_out` that queue a DATA-OUT, from a world, an offset
and a length to those after the turns; the list has the addresses of the DATA-OUTs. -/
inductive BurstTurns (cmd : Addr) (ttt : UInt32) :
    World → UInt32 → UInt32 → List Addr → World → UInt32 → UInt32 → Prop
  | refl (w : World) (offset len : UInt32) : BurstTurns cmd ttt w offset len [] w offset len
  | step {w w₁ w' : World} {offset len offset' len' seg : UInt32} {sent : List Addr}
    (hlen : len > 0) (hseg : seg = min len w.iscsi.targetMaxRecvDataSegmentLength)
    (h : sendOneDataOut service w cmd ttt offset seg (len == seg) = .ok (true, w₁))
    (hrest : BurstTurns cmd ttt w₁ (offset + seg) (len - seg) sent w' offset' len') :
    BurstTurns cmd ttt w offset len (w.brk :: sent) w' offset' len'

/-- The allocation of a DATA-OUT fails after those with the addresses were queued; `w'` is the
state after the allocation that failed. -/
def BurstFails (cmd : Addr) (ttt : UInt32) (w : World) (offset len : UInt32) (sent : List Addr)
    (w' : World) : Prop :=
  ∃ w₁ offset₁ len₁ seg, BurstTurns service cmd ttt w offset len sent w₁ offset₁ len₁ ∧
    len₁ > 0 ∧ seg = min len₁ w₁.iscsi.targetMaxRecvDataSegmentLength ∧
    sendOneDataOut service w₁ cmd ttt offset₁ seg (len₁ == seg) = .ok (false, w')

/-- `iscsi_process_pdu` for an R2T of a PDU that was found in `waitpdu`. -/
def iscsiProcessPduR2t (w : World) (a : Addr) (inPdu : InPdu) : Res (Int × World) := do
  let (ret, w) ← iscsiProcessR2t service w a inPdu
  if ret ≠ 0 then
    let waitpdu ← listRemove w.iscsi.waitpdu a
    let w ← iscsiFreePdu (w.modify (·.setWaitpdu waitpdu)) a
    .ok (-1, w)
  else .ok (0, w)

/-- The calls that send a burst for a command, with the state, the target transfer tag, the offset
and the length they start it with. -/
inductive BurstCaller (cmd : Addr) : World → UInt32 → UInt32 → UInt32 → Res (Int × World) → Prop
  | r2t {w : World} {pdu : Pdu} (inPdu : InPdu) (hpdu : w.pdus cmd = some pdu) :
    BurstCaller cmd (w.setPdu cmd { pdu with datasn := 0 }) (scsiGetUint32 inPdu.hdr 20)
      (scsiGetUint32 inPdu.hdr 40) (scsiGetUint32 inPdu.hdr 44)
      (iscsiProcessPduR2t service w cmd inPdu)
  | command {w w₁ : World} {pdu : Pdu} {t : TaskPtr}
    (hmore : unsolicitedFollows w.iscsi (w.tasks t) = true)
    (hqueue : iscsiQueuePdu service w cmd = .ok w₁) (hpdu : w₁.pdus cmd = some pdu) :
    BurstCaller cmd w₁ 0xffffffff (UInt32.ofNat pdu.payloadLen)
      (min pdu.expxferlen w₁.iscsi.firstBurstLength - UInt32.ofNat pdu.payloadLen)
      (submitCommand service w cmd t)

/-- What a failed burst should leave: the command is out of both queues, it is not being sent, its
callback was called once, with `SCSI_STATUS_ERROR`, and it was freed once; none of the DATA-OUTs
queued before is in `outqueue`; and the callers do nothing more. A caller is bound to fewer turns
than the burst has bytes. -/
def BurstClean (cmd : Addr) (ttt : UInt32) (w : World) (offset len : UInt32) (sent : List Addr)
    (w' : World) : Prop :=
  ∃ w₁ pdu, w'.pdus cmd = some pdu ∧
    (∀ turns, sent.length < turns →
      iscsiSendDataOut service turns w cmd ttt offset len = .ok (-1, w₁)) ∧
    cmd ∉ w₁.iscsi.addrs ∧ w₁.pdus cmd = none ∧
    w'.newEvents w₁ = pdu.callbackEvents cmd scsiStatusError ++ [.free cmd] ∧
    (∀ a ∈ sent, a ∉ w₁.iscsi.outqueue) ∧
    ∀ x, BurstCaller service cmd w ttt offset len x → sent.length < len.toNat → x = .ok (0, w₁)

/-- The command, and the queues it may be in, are well formed. -/
structure World.Unlinkable (w : World) (cmd : Addr) : Prop where
  outqueue : w.iscsi.outqueue.Nodup
  waitpdu : w.iscsi.waitpdu.Nodup
  live : ∃ pdu, w.pdus cmd = some pdu ∧ pdu.HasTask

end

/-! ## The loop up to the failure -/

section
variable {service : World → Res World} {cmd : Addr} {ttt : UInt32} {w w' : World}
  {offset len : UInt32} {sent : List Addr}

/-- One turn of the loop. -/
theorem iscsiSendDataOut_turn {turns : Nat} {seg : UInt32} {r : Bool} {w₁ : World} (hlen : len > 0)
    (hseg : seg = min len w.iscsi.targetMaxRecvDataSegmentLength)
    (h : sendOneDataOut service w cmd ttt offset seg (len == seg) = .ok (r, w₁)) :
    iscsiSendDataOut service (turns + 1) w cmd ttt offset len =
      if r then iscsiSendDataOut service turns w₁ cmd ttt (offset + seg) (len - seg)
      else dataOutError w₁ cmd := by
  rw [iscsiSendDataOut, if_pos hlen]
  simp only [← hseg, h, Outcome.ok_bind]

/-- A burst that fails ends at the `error` exit. -/
theorem BurstFails.sendDataOut (h : BurstFails service cmd ttt w offset len sent w') {turns : Nat}
    (hturns : sent.length < turns) :
    iscsiSendDataOut service turns w cmd ttt offset len = dataOutError w' cmd := by
  obtain ⟨w₁, offset₁, len₁, seg₁, hrun, hlen₁, hseg₁, hfail⟩ := h
  induction hrun generalizing turns with
  | refl w offset len =>
    obtain ⟨turns, rfl⟩ := Nat.exists_eq_add_of_lt hturns
    rw [iscsiSendDataOut_turn hlen₁ hseg₁ hfail]
    rfl
  | step hlen hseg h _ ih =>
    obtain ⟨turns, rfl⟩ : ∃ n, turns = n + 1 :=
      Nat.exists_eq_succ_of_ne_zero (Nat.ne_of_gt (Nat.zero_lt_of_lt hturns))
    rw [iscsiSendDataOut_turn hlen hseg h, if_pos rfl]
    exact ih (by simpa using hturns) hlen₁ hseg₁ hfail

/-- The `error` exit where both queues have a PDU. -/
theorem dataOutError_eq {pdu : Pdu} (hout : w.iscsi.outqueue ≠ []) (hwait : w.iscsi.waitpdu ≠ [])
    (hp : w.pdus cmd = some pdu) (ht : pdu.HasTask) :
    dataOutError w cmd = .ok (-1, ((w.modify fun c =>
      (c.setOutqueue (w.iscsi.outqueue.erase cmd)).setWaitpdu (w.iscsi.waitpdu.erase cmd)).called
        cmd pdu scsiStatusError).release cmd) := by
  set v := w.modify fun c =>
    (c.setOutqueue (w.iscsi.outqueue.erase cmd)).setWaitpdu (w.iscsi.waitpdu.erase cmd) with hv
  have hfree : iscsiFreePdu (v.called cmd pdu scsiStatusError) cmd =
      .ok ((v.called cmd pdu scsiStatusError).release cmd) :=
    iscsiFreePdu_eq_ok.2 ⟨by simp [World.called, hv, hp], rfl⟩
  unfold dataOutError
  simp only [listRemove_eq_ok.2 ⟨hout, rfl⟩, listRemove_eq_ok.2 ⟨hwait, rfl⟩, Outcome.ok_bind,
    ← hv, invokeCallback_eq scsiStatusError (show v.pdus cmd = some pdu from hp) ht, hfree]

/-- The callers of a burst that failed return 0. -/
theorem BurstFails.caller {w₁ : World} {x : Res (Int × World)}
    (hfail : iscsiSendDataOut service len.toNat w cmd ttt offset len = .ok (-1, w₁))
    (h : BurstCaller service cmd w ttt offset len x) : x = .ok (0, w₁) := by
  cases h with
  | r2t inPdu hpdu =>
    unfold iscsiProcessPduR2t iscsiProcessR2t
    simp only [World.deref_eq_ok.2 hpdu, Outcome.ok_bind, hfail]
    rfl
  | command hmore hqueue hpdu =>
    unfold submitCommand iscsiSendUnsolicitedDataOut
    simp only [hmore, if_true, hqueue, Outcome.ok_bind, World.deref_eq_ok.2 hpdu, hfail]

/-- **A burst fails cleanly exactly when both queues have a PDU and none of the DATA-OUTs queued
before is left.** -/
theorem burstFailure_clean_iff (h : BurstFails service cmd ttt w offset len sent w')
    (hw : w'.Unlinkable cmd) (hcmd : cmd ∉ sent) :
    BurstClean service cmd ttt w offset len sent w' ↔
      w'.iscsi.outqueue ≠ [] ∧ w'.iscsi.waitpdu ≠ [] ∧ ∀ a ∈ sent, a ∉ w'.iscsi.outqueue := by
  obtain ⟨pdu, hp, ht⟩ := hw.live
  have hloop : ∀ turns, sent.length < turns → iscsiSendDataOut service turns w cmd ttt offset len =
      dataOutError w' cmd := fun _ => h.sendDataOut
  constructor
  · rintro ⟨w₁, _, _, hrun, hgone, _, _, hsent, _⟩
    have herr := (hloop _ (Nat.lt_succ_self _)).symm.trans (hrun _ (Nat.lt_succ_self _))
    have hqueues := herr
    unfold dataOutError at hqueues
    obtain ⟨_, hout, hqueues⟩ := Outcome.bind_eq_ok.1 hqueues
    obtain ⟨_, hwait, _⟩ := Outcome.bind_eq_ok.1 hqueues
    have hout := (listRemove_eq_ok.1 hout).1
    have hwait := (listRemove_eq_ok.1 hwait).1
    refine ⟨hout, hwait, fun a ha hm => ?_⟩
    rw [dataOutError_eq hout hwait hp ht] at herr
    obtain ⟨_, rfl⟩ := Prod.mk.inj (Except.ok.inj herr)
    have hne : a ≠ cmd := fun h => hcmd (h ▸ ha)
    refine hsent a ha ?_
    simpa [World.release, World.called] using (List.mem_erase_of_ne hne).2 hm
  · rintro ⟨hout, hwait, hsent⟩
    have herr := dataOutError_eq hout hwait hp ht
    refine ⟨_, pdu, hp, fun turns hturns => (hloop turns hturns).trans herr, ?_, ?_, ?_, ?_, ?_⟩
    · simp [Context.addrs, World.release, World.called, hw.outqueue.mem_erase_iff,
        hw.waitpdu.mem_erase_iff]
    · simp [World.release]
    · simp [World.newEvents, World.release, World.called]
    · intro a ha
      simpa [World.release, World.called] using fun hm => hsent a ha (List.mem_of_mem_erase hm)
    · exact fun x hx hlt => BurstFails.caller ((hloop _ hlt).trans herr) hx

end

/-! ## A DATA-OUT that cannot be allocated -/

/-- A write command, of task 0, that has been sent. -/
def sentWrite : Pdu :=
  { outdata := iscsiPduScsiRequest :: List.replicate 47 0
    itt := 7
    callback := some .scsiResponseCb
    scsiCbdata := { callback := some (.user 0), task := some 0 } }

/-- The command waits for its response, these PDUs are queued, and there is no memory. -/
def outOfMemory (queued : List Addr) : World :=
  { iscsi := { outqueue := queued, waitpdu := [0], targetMaxRecvDataSegmentLength := 512 }
    pdus := fun a => if a = 0 ∨ a ∈ queued then some sentWrite else none
    brk := 9
    allocs := [false] }

/-- Its burst fails at the first DATA-OUT. -/
theorem outOfMemory_fails (service : World → Res World) (queued : List Addr) :
    BurstFails service 0 7 (outOfMemory queued) 0 512 []
      { outOfMemory queued with allocs := [] } :=
  ⟨_, _, _, _, .refl .., by decide, rfl, rfl⟩

theorem outOfMemory_unlinkable {queued : List Addr} (h : queued.Nodup) :
    World.Unlinkable { outOfMemory queued with allocs := [] } 0 :=
  ⟨h, by simp [outOfMemory], sentWrite, by simp [outOfMemory], fun _ => rfl⟩

/-- With another command in `outqueue` the failure is clean. -/
theorem burstFailure_clean_one :
    BurstClean .ok 0 7 (outOfMemory [1]) 0 512 [] { outOfMemory [1] with allocs := [] } :=
  (burstFailure_clean_iff (outOfMemory_fails .ok [1]) (outOfMemory_unlinkable (by decide))
    (by decide)).2 ⟨by decide, by decide, by decide⟩

/-- With an empty `outqueue` a NULL pointer is dereferenced. -/
theorem burstFailure_empty_outqueue :
    ¬∀ (service : World → Res World) (cmd : Addr) (ttt : UInt32) (w : World)
      (offset len : UInt32) (sent : List Addr) (w' : World),
      BurstFails service cmd ttt w offset len sent w' → w'.Unlinkable cmd → cmd ∉ sent →
        BurstClean service cmd ttt w offset len sent w' := by
  intro h
  obtain ⟨w₁, _, _, hrun, _⟩ := h .ok 0 7 (outOfMemory []) 0 512 [] _
    (outOfMemory_fails .ok []) (outOfMemory_unlinkable (by decide)) (by decide)
  have hnull : iscsiSendDataOut .ok 1 (outOfMemory []) 0 7 0 512 = .error .nullDeref := rfl
  rw [hrun 1 (by decide)] at hnull
  cases hnull

end Libiscsi
