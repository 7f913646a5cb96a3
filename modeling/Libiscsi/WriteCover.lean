import Libiscsi.CmdsnCorrect
import Libiscsi.IovectorSpec

/-!
# Who carries the data of a WRITE

The data of a WRITE goes out in three kinds of segments: with the command, in the unsolicited
DATA-OUTs that follow it, and in the DATA-OUTs that answer R2Ts. When no DATA-OUT fails to be
allocated, and the R2Ts ask in order for what is left, the segments tile the whole transfer
(`write_covered`).
-/

namespace Libiscsi

open Tiling

/-! ## The header of a command -/

section
variable {pdu : Pdu} {c : Context} {a : Addr} {lun : UInt32} {t : TaskPtr} {task : ScsiTask}
  {cb : Option Callback} {privateData : Nat}

/-- A new PDU has no data. -/
theorem freshPdu_dataSize {opcode responseOpcode : UInt8} {itt flags : UInt32}
    (hop : opcode ≠ iscsiPduLoginRequest) :
    scsiGetUint32 (c.freshPdu opcode responseOpcode itt flags).outdata 4 = 0 := by
  have hzero : ∀ i, byte (List.replicate (iscsiHeaderSize c.headerDigest) 0) i = 0 := by
    intro i
    simp only [byte, List.getD_eq_getElem?_getD, List.getElem?_replicate]
    split <;> rfl
  unfold Context.freshPdu
  simp only [if_neg hop]
  change scsiGetUint32 (scsiSetUint32 _ 16 itt) 4 = 0
  rw [scsiGetUint32_setUint32 (by omega), scsiGetUint32_setByte (by omega)]
  simp only [scsiGetUint32, hzero]
  rfl

theorem commandFor_headerFlags (hsize : 48 ≤ pdu.outdata.length) :
    byte (pdu.commandFor c a lun t task cb privateData).outdata 1 = commandFlags c task := by
  unfold Pdu.commandFor Pdu.setCdb Pdu.setCmdsn Pdu.asCommand
  simp only [Pdu.setExpxferlen, Pdu.setLun, Pdu.setPduflags, Pdu.setByte, Pdu.setField]
  rw [byte_copyBytes (by omega), byte_scsiSetUint32 (by omega), byte_scsiSetUint32 (by omega),
    byte_scsiSetUint16 (by omega), byte_set_eq]
  split
  · simp [Pdu.setDataSegmentLength, Pdu.setField]
    omega
  · simp only
    omega

theorem commandFor_dataSize (hsize : 48 ≤ pdu.outdata.length)
    (hzero : scsiGetUint32 pdu.outdata 4 = 0) :
    scsiGetUint32 (pdu.commandFor c a lun t task cb privateData).outdata 4 =
      immediateDataLen c task := by
  unfold Pdu.commandFor Pdu.setCdb Pdu.setCmdsn Pdu.asCommand
  simp only [Pdu.setExpxferlen, Pdu.setLun, Pdu.setPduflags, Pdu.setByte, Pdu.setField]
  rw [scsiGetUint32_copyBytes (by omega), scsiGetUint32_setUint32 (by omega),
    scsiGetUint32_setUint32 (by omega), scsiGetUint32_setUint16 (by omega),
    scsiGetUint32_setByte (by omega)]
  split
  · simp only [Pdu.setDataSegmentLength, Pdu.setField, UInt32.ofNat_toNat]
    exact scsiGetUint32_set (by omega)
  · rename_i himm
    rw [immediateDataLen, if_neg himm]
    exact hzero

theorem commandFor_task :
    (pdu.commandFor c a lun t task cb privateData).scsiCbdata.task = some t := by
  unfold Pdu.commandFor Pdu.setCdb Pdu.setCmdsn Pdu.asCommand
  simp only
  split <;> rfl

theorem commandFor_payloadOffset :
    (pdu.commandFor c a lun t task cb privateData).payloadOffset = 0 := by
  unfold Pdu.commandFor Pdu.setCdb Pdu.setCmdsn Pdu.asCommand
  simp only
  split <;> rfl

theorem commandFor_datasn :
    (pdu.commandFor c a lun t task cb privateData).datasn = pdu.datasn := by
  unfold Pdu.commandFor Pdu.setCdb Pdu.setCmdsn Pdu.asCommand
  simp only
  split <;> rfl

/-- The F bit of a WRITE says that no unsolicited DATA-OUT follows. -/
theorem commandFlags_final (hwrite : task.xferDir = .write) :
    (commandFlags c task &&& iscsiPduScsiFinal != 0) = !unsolicitedFollows c task := by
  unfold commandFlags
  rw [hwrite]
  cases unsolicitedFollows c task <;> rfl

end

/-! ## The command and what follows it unasked -/

/-- A command for a WRITE and the unsolicited DATA-OUTs that follow it, with the offset `b` up to
which they carry the data. -/
structure CommandBurst (segment : UInt32) (c : Context) (t : TaskPtr) (s : ScsiTask)
    (cmd : Pdu) (ps : List Pdu) (b : Nat) : Prop where
  opcode : cmd.opcode = iscsiPduScsiRequest
  task : cmd.scsiCbdata.task = some t
  offset : cmd.payloadOffset = 0
  bound : cmd.payloadLen ≤ segment.toNat
  size : iscsiGetPduDataSize cmd.outdata = cmd.payloadLen
  final : cmd.final ↔ ps = []
  burst : IsBurst (some t) 0xffffffff segment 0 cmd.payloadLen b ps
  firstBurst : b ≤ min s.expxferlen.toNat c.firstBurstLength.toNat
  immediateData : c.useImmediateData = false → cmd.payloadLen = 0
  initialR2t : c.useInitialR2t → ps = []

section
variable {service : World → Res World} {w w' : World} {a : Addr} {t : TaskPtr}

/-- The immediate data is no more than each of its bounds. -/
theorem toNat_immediateDataLen (c : Context) (task : ScsiTask) :
    (immediateDataLen c task).toNat ≤ min task.expxferlen.toNat c.firstBurstLength.toNat ∧
      (immediateDataLen c task).toNat ≤ c.targetMaxRecvDataSegmentLength.toNat := by
  unfold immediateDataLen
  split
  · rw [UInt32.toNat_min, UInt32.toNat_min]
    omega
  · simp

/-- A command that was filled in is queued, with the unsolicited DATA-OUTs. -/
theorem submitCommand_burst (hserves : Serves service) {segment : UInt32} {p : Pdu} {r : Int}
    (hpos : 0 < segment) (hseg : segment.toNat < 2 ^ 24)
    (hsegment : w.iscsi.targetMaxRecvDataSegmentLength = segment)
    (hwrite : (w.tasks t).xferDir = .write) (ha : a < w.brk) (hp : w.pdus a = some p)
    (hop : byte p.outdata 0 = iscsiPduScsiRequest) (htask : p.scsiCbdata.task = some t)
    (hoff : p.payloadOffset = 0) (hsn : p.datasn = 0)
    (hlen : p.payloadLen = (immediateDataLen w.iscsi (w.tasks t)).toNat)
    (hexp : p.expxferlen = (w.tasks t).expxferlen)
    (hflags : byte p.outdata 1 = commandFlags w.iscsi (w.tasks t))
    (hsize : scsiGetUint32 p.outdata 4 = immediateDataLen w.iscsi (w.tasks t))
    (hal : ∀ b ∈ w.allocs.take (2 * unsolicitedTurns w.iscsi (w.tasks t)), b = true)
    (h : submitCommand service w a t = .ok (r, w')) :
    ∃ cmd ps b, queuedPdus w'.trace = queuedPdus w.trace ++ cmd :: ps ∧
      CommandBurst segment w.iscsi t (w.tasks t) cmd ps b := by
  obtain ⟨hbound, hboundSeg⟩ := toNat_immediateDataLen w.iscsi (w.tasks t)
  rw [hsegment] at hboundSeg
  unfold submitCommand at h
  obtain ⟨w₁, hq, h⟩ := Outcome.bind_eq_ok.1 h
  obtain ⟨hqueued, hsub, hallocs, hsame, _⟩ := iscsiQueuePdu_queued hserves hp
    (by rw [Pdu.immediate, hop]; rfl) hq
  set cmd : Pdu := { p with scsiTimeout := w.timeoutOf } with hcmd
  have hfinal : cmd.final = !unsolicitedFollows w.iscsi (w.tasks t) := by
    rw [← commandFlags_final hwrite, ← hflags]
    rfl
  have hdata : iscsiGetPduDataSize cmd.outdata = cmd.payloadLen := by
    rw [iscsiGetPduDataSize_eq hsize (by omega)]
    exact hlen.symm
  have hopcode : cmd.opcode = iscsiPduScsiRequest := by
    change byte p.outdata 0 &&& 0x3f = _
    rw [hop]
    rfl
  have hnoImm : w.iscsi.useImmediateData = false → cmd.payloadLen = 0 := by
    intro hno
    change p.payloadLen = 0
    rw [hlen, immediateDataLen, if_neg (by simp [hno])]
    rfl
  have hcmdLen : cmd.payloadLen = (immediateDataLen w.iscsi (w.tasks t)).toNat := hlen
  split at h
  · rename_i hmore
    obtain ⟨⟨s, w₂⟩, hun, h⟩ := Outcome.bind_eq_ok.1 h
    obtain ⟨_, rfl⟩ := Prod.mk.inj (Except.ok.inj h)
    unfold iscsiSendUnsolicitedDataOut at hun
    obtain ⟨q, hq', hun⟩ := Outcome.bind_eq_ok.1 hun
    have hreq := hsame q (World.deref_eq_ok.1 hq')
    have hqlen : UInt32.ofNat q.payloadLen = immediateDataLen w.iscsi (w.tasks t) := by
      rw [hreq.payloadLen, hcmdLen, UInt32.ofNat_toNat]
    have hqexp : q.expxferlen = (w.tasks t).expxferlen := hreq.expxferlen.trans hexp
    have hunlen : min q.expxferlen w₁.iscsi.firstBurstLength -
        immediateDataLen w.iscsi (w.tasks t) = unsolicitedLen w.iscsi (w.tasks t) := by
      rw [hqexp, hsub.firstBurst]
      rfl
    simp only [hqlen, hunlen] at hun
    have hmin : (min (w.tasks t).expxferlen w.iscsi.firstBurstLength).toNat =
        min (w.tasks t).expxferlen.toNat w.iscsi.firstBurstLength.toNat := UInt32.toNat_min ..
    have hunNat : (unsolicitedLen w.iscsi (w.tasks t)).toNat =
        min (w.tasks t).expxferlen.toNat w.iscsi.firstBurstLength.toNat -
          (immediateDataLen w.iscsi (w.tasks t)).toNat := by
      rw [unsolicitedLen, UInt32.toNat_sub_of_le _ _ (UInt32.le_iff_toNat_le.2 (by omega)), hmin]
    have hEbound := (w.tasks t).expxferlen.toNat_lt
    obtain ⟨_, _, ps, hps, hburst⟩ := iscsiSendDataOut_burst hserves hpos hseg
      (lt_of_lt_of_le ha hsub.brk) hsame (hsub.segment.trans hsegment) (by omega)
      (fun b hb => hal b (by
        rw [unsolicitedTurns, if_pos hmore, hsegment]
        rwa [hallocs] at hb)) hun
    have hfollows : immediateDataLen w.iscsi (w.tasks t) < (w.tasks t).expxferlen ∧
        immediateDataLen w.iscsi (w.tasks t) < w.iscsi.firstBurstLength ∧
        w.iscsi.useInitialR2t = false := by
      simp only [unsolicitedFollows, decide_eq_true_eq] at hmore
      exact ⟨hmore.2.2.1, hmore.2.2.2, by simpa using hmore.2.1⟩
    have h₁ := UInt32.lt_iff_toNat_lt.1 hfollows.1
    have h₂ := UInt32.lt_iff_toNat_lt.1 hfollows.2.1
    have hne : ps ≠ [] := by
      rintro rfl
      have := hburst.tiles.length
      simp only [List.map_nil, List.sum_nil] at this
      omega
    rw [show cmd.scsiCbdata.task = some t from htask, show cmd.datasn = 0 from hsn,
      ← hcmdLen] at hburst
    refine ⟨cmd, ps, _, by rw [hps, hqueued]; simp, hopcode, htask, hoff, by omega, hdata, ?_,
      hburst, by omega, hnoImm, fun hr => ?_⟩
    · rw [hfinal, hmore]
      simpa using hne
    · rw [hfollows.2.2] at hr
      cases hr
  · rename_i hmore
    obtain ⟨_, rfl⟩ := Prod.mk.inj (Except.ok.inj h)
    refine ⟨cmd, [], _, hqueued, hopcode, htask, hoff, by omega, hdata, ?_, .nil, by omega, hnoImm,
      fun _ => rfl⟩
    rw [hfinal]
    simpa using hmore

/-- `iscsi_scsi_command_async` from the allocation of the PDU on. -/
theorem queueCommand_burst (hserves : Serves service) {segment lun : UInt32}
    {cb : Option Callback} {privateData : Nat}
    (hpos : 0 < segment) (hseg : segment.toNat < 2 ^ 24)
    (hsegment : w.iscsi.targetMaxRecvDataSegmentLength = segment)
    (hwrite : (w.tasks t).xferDir = .write)
    (hal : ∀ b ∈ (w.allocs.drop 2).take (2 * unsolicitedTurns w.iscsi (w.tasks t)), b = true)
    (h : queueCommand service w lun t cb privateData = .ok (0, w')) :
    ∃ cmd ps b, queuedPdus w'.trace = queuedPdus w.trace ++ cmd :: ps ∧
      CommandBurst segment w.iscsi t (w.tasks t) cmd ps b := by
  unfold queueCommand iscsiIttPostIncrement at h
  simp only at h
  set w₁ := w.modify fun c =>
    { c with itt := if w.iscsi.itt + 1 = 0xffffffff then 0 else w.iscsi.itt + 1 } with hw₁
  rcases hal₁ : iscsiAllocatePdu w₁ iscsiPduScsiRequest iscsiPduScsiResponse w.iscsi.itt 0 with
    ⟨_ | a, w₂⟩
  · rw [hal₁] at h
    cases (Prod.mk.inj (Except.ok.inj h)).1
  rw [hal₁] at h
  obtain ⟨rfl, rfl⟩ := iscsiAllocatePdu_some hal₁
  simp only at h
  obtain ⟨w₃, hprep, hsub⟩ := Outcome.bind_eq_ok.1 h
  set fresh := w₁.iscsi.freshPdu iscsiPduScsiRequest iscsiPduScsiResponse w.iscsi.itt 0 with hfresh
  have hsize : 48 ≤ fresh.outdata.length := by
    rw [hfresh, freshPdu_length]
    exact iscsiHeaderSize_ge _
  have hop : byte fresh.outdata 0 = iscsiPduScsiRequest := by rw [hfresh, byte_freshPdu]
  have hzero : scsiGetUint32 fresh.outdata 4 = 0 := by
    rw [hfresh]
    exact freshPdu_dataSize (by decide)
  have hsn : fresh.datasn = 0 := rfl
  have hframe := prepareCommand_spec (p := fresh) (Function.update_self ..) hprep
  clear_value fresh
  have htask : w₃.tasks t = { w.tasks t with
      ptr := some w₁.brk, lun, cmdsn := w.iscsi.cmdsn, itt := fresh.itt } := by
    rw [hframe]
    exact Function.update_self ..
  have hcontext : w₃.iscsi.firstBurstLength = w.iscsi.firstBurstLength ∧
      w₃.iscsi.targetMaxRecvDataSegmentLength = w.iscsi.targetMaxRecvDataSegmentLength ∧
      w₃.iscsi.useImmediateData = w.iscsi.useImmediateData ∧
      w₃.iscsi.useInitialR2t = w.iscsi.useInitialR2t := by
    rw [hframe]
    exact ⟨rfl, rfl, rfl, rfl⟩
  -- what a command is made of has not changed while its PDU was filled in
  have hsame : immediateDataLen w₃.iscsi (w₃.tasks t) = immediateDataLen w.iscsi (w.tasks t) ∧
      commandFlags w₃.iscsi (w₃.tasks t) = commandFlags w.iscsi (w.tasks t) ∧
      unsolicitedTurns w₃.iscsi (w₃.tasks t) = unsolicitedTurns w.iscsi (w.tasks t) := by
    rw [htask, hframe]
    exact ⟨rfl, rfl, rfl⟩
  have hallocs : w₃.allocs = w.allocs.drop 2 := by
    rw [hframe]
    rfl
  have htrace : queuedPdus w₃.trace = queuedPdus w.trace := by
    rw [hframe, World.put_trace, queuedPdus_append]
    exact List.append_nil _
  obtain ⟨cmd, ps, b, hqueued, hburst⟩ := submitCommand_burst hserves hpos hseg
    (hcontext.2.1.trans hsegment) (by rw [htask]; exact hwrite)
    (by rw [hframe]; exact Nat.lt_succ_self _) (by rw [hframe]; exact Function.update_self ..)
    (by rw [byte_commandFor, hop]) commandFor_task commandFor_payloadOffset
    (commandFor_datasn.trans hsn) (by rw [commandFor_payloadLen, hsame.1]; rfl)
    (by rw [commandFor_expxferlen, htask]; rfl)
    (by rw [commandFor_headerFlags hsize, hsame.2.1]; rfl)
    (by rw [commandFor_dataSize hsize hzero, hsame.1]; rfl)
    (by rw [hallocs, hsame.2.2]; exact hal) hsub
  refine ⟨cmd, ps, b, by rw [hqueued, htrace], { hburst with
    firstBurst := ?_, immediateData := ?_, initialR2t := ?_ }⟩
  · have := hburst.firstBurst
    rwa [htask, hcontext.1] at this
  · rw [← hcontext.2.2.1]
    exact hburst.immediateData
  · rw [← hcontext.2.2.2]
    exact hburst.initialR2t

/-- The world as the context sees it that takes the commands: while a reconnect is in progress it
is the one that was put aside. -/
def World.taker (w : World) : World :=
  match w.olds with
  | [] => w
  | old :: olds => { w with iscsi := old, olds }

/-- **A WRITE that was accepted is queued as a command and its unsolicited DATA-OUTs.** -/
theorem iscsiScsiCommandAsync_burst (hserves : Serves service) {segment lun : UInt32}
    {cb : Option Callback} {d : Option ScsiIovec} {privateData : Nat}
    (hpos : 0 < segment) (hseg : segment.toNat < 2 ^ 24)
    (hsegment : w.taker.iscsi.targetMaxRecvDataSegmentLength = segment)
    (hwrite : (w.tasks t).xferDir = .write) (hal : w.taker.DataOutsAllocated t d)
    (h : iscsiScsiCommandAsync service w lun t cb d privateData = .ok (0, w')) :
    ∃ cmd ps b, queuedPdus w'.trace = queuedPdus w.trace ++ cmd :: ps ∧
      CommandBurst segment w.taker.iscsi t (w.tasks t) cmd ps b := by
  obtain ⟨v, hv, htrace⟩ : ∃ v, commandHere service w.taker lun t cb d privateData = .ok (0, v) ∧
      w'.trace = v.trace := by
    unfold iscsiScsiCommandAsync at h
    unfold World.taker
    rcases holds : w.olds with _ | ⟨old, olds⟩
    · rw [holds] at h
      exact ⟨w', h, rfl⟩
    · rw [holds] at h
      obtain ⟨⟨r, v⟩, hv, h⟩ := Outcome.bind_eq_ok.1 h
      obtain ⟨rfl, rfl⟩ := Prod.mk.inj (Except.ok.inj h)
      exact ⟨v, hv, rfl⟩
  obtain ⟨htasks, htr⟩ : w.taker.tasks = w.tasks ∧ w.taker.trace = w.trace := by
    unfold World.taker
    split <;> exact ⟨rfl, rfl⟩
  rw [htrace, ← htr, ← htasks]
  rw [← htasks] at hwrite
  generalize w.taker = u at *
  unfold commandHere at hv
  split at hv
  · cases (Prod.mk.inj (Except.ok.inj hv)).1
  split at hv
  · cases (Prod.mk.inj (Except.ok.inj hv)).1
  cases d with
  | none => exact queueCommand_burst hserves hpos hseg hsegment hwrite hal hv
  | some iov =>
    rw [World.malloc_eq] at hv
    simp only at hv
    split at hv
    · cases (Prod.mk.inj (Except.ok.inj hv)).1
    set u₁ := ({ u with allocs := u.allocs.tail } : World).modifyTask t
      fun task => scsiTaskSetIovOut task [iov] with hu₁
    have htask : u₁.tasks t = scsiTaskSetIovOut (u.tasks t) [iov] := Function.update_self ..
    have hal₁ : ∀ b ∈ (u₁.allocs.drop 2).take (2 * unsolicitedTurns u₁.iscsi (u₁.tasks t)),
        b = true := fun b hb => by
      have hturns : unsolicitedTurns u.iscsi (scsiTaskSetIovOut (u.tasks t) [iov]) =
          unsolicitedTurns u.iscsi (u.tasks t) := rfl
      simp only [hu₁, World.modifyTask_iscsi, World.modifyTask_tasks, Function.update_self,
        World.modifyTask_allocs, hturns, List.drop_tail] at hb
      exact hal b hb
    obtain ⟨cmd, ps, b, hqueued, hburst⟩ := queueCommand_burst hserves hpos hseg
      (show u₁.iscsi.targetMaxRecvDataSegmentLength = _ from hsegment) (by rw [htask]; exact hwrite)
      hal₁ hv
    rw [htask] at hburst
    exact ⟨cmd, ps, b, hqueued, { hburst with firstBurst := hburst.firstBurst }⟩

/-! ## The data the target asks for -/

/-- **The DATA-OUTs that answer an R2T are a burst** over the range it asks for, with its target
transfer tag. -/
theorem iscsiProcessR2t_burst (hserves : Serves service) {segment : UInt32} {inPdu : InPdu}
    {r : Int} (hpos : 0 < segment) (hseg : segment.toNat < 2 ^ 24) (ha : a < w.brk)
    (htask : ∃ p, w.pdus a = some p ∧ p.scsiCbdata.task = some t)
    (hsegment : w.iscsi.targetMaxRecvDataSegmentLength = segment)
    (hrange : (scsiGetUint32 inPdu.hdr 40).toNat + (scsiGetUint32 inPdu.hdr 44).toNat < 2 ^ 32)
    (hal : ∀ b ∈ w.allocs.take (2 * dataOutTurns (scsiGetUint32 inPdu.hdr 44).toNat segment
      (scsiGetUint32 inPdu.hdr 44)), b = true)
    (h : iscsiProcessR2t service w a inPdu = .ok (r, w')) :
    ∃ ps, queuedPdus w'.trace = queuedPdus w.trace ++ ps ∧
      IsBurst (some t) (scsiGetUint32 inPdu.hdr 20) segment 0 (scsiGetUint32 inPdu.hdr 40).toNat
        ((scsiGetUint32 inPdu.hdr 40).toNat + (scsiGetUint32 inPdu.hdr 44).toNat) ps := by
  obtain ⟨p, hp, ht⟩ := htask
  unfold iscsiProcessR2t at h
  rw [World.deref_eq_ok.2 hp, Outcome.ok_bind] at h
  obtain ⟨⟨s, w₁⟩, hsend, h⟩ := Outcome.bind_eq_ok.1 h
  obtain ⟨_, rfl⟩ := Prod.mk.inj (Except.ok.inj h)
  have hcmd : ∀ q, (w.setPdu a { p with datasn := 0 }).pdus a = some q →
      ({ p with datasn := 0 } : Pdu).SameRequest q := fun q hq => by
    rw [World.setPdu_pdus, Function.update_self, Option.some.injEq] at hq
    exact hq ▸ .refl _
  obtain ⟨_, _, ps, hps, hburst⟩ := iscsiSendDataOut_burst (w := w.setPdu a { p with datasn := 0 })
    hserves hpos hseg ha hcmd hsegment hrange hal hsend
  exact ⟨ps, hps, ht ▸ hburst⟩

/-- R2Ts for the command at `a` that ask in order for the data from `b` to `e`, and the DATA-OUTs
that were queued for each. Each arrives in some state in which the command is outstanding and the
DATA-OUTs can be allocated. -/
inductive Solicits (service : World → Res World) (a : Addr) (t : TaskPtr) (segment : UInt32)
    (e : Nat) : Nat → List (UInt32 × List Pdu) → Prop where
  | done : Solicits service a t segment e e []
  | r2t {b : Nat} {w w' : World} {r : Int} {inPdu : InPdu} {ps : List Pdu}
      {rest : List (UInt32 × List Pdu)} (ha : a < w.brk)
      (htask : ∃ p, w.pdus a = some p ∧ p.scsiCbdata.task = some t)
      (hsegment : w.iscsi.targetMaxRecvDataSegmentLength = segment)
      (hoffset : (scsiGetUint32 inPdu.hdr 40).toNat = b)
      (hlen : b + (scsiGetUint32 inPdu.hdr 44).toNat ≤ e)
      (hal : ∀ b ∈ w.allocs.take (2 * dataOutTurns (scsiGetUint32 inPdu.hdr 44).toNat segment
        (scsiGetUint32 inPdu.hdr 44)), b = true)
      (h : iscsiProcessR2t service w a inPdu = .ok (r, w'))
      (hps : queuedPdus w'.trace = queuedPdus w.trace ++ ps)
      (hrest : Solicits service a t segment e (b + (scsiGetUint32 inPdu.hdr 44).toNat) rest) :
      Solicits service a t segment e b ((scsiGetUint32 inPdu.hdr 20, ps) :: rest)

/-- The bursts that answer R2Ts tile what was asked for. -/
theorem Solicits.bursts (hserves : Serves service) {segment : UInt32} (hpos : 0 < segment)
    (hseg : segment.toNat < 2 ^ 24) {e b : Nat} (he : e < 2 ^ 32) {l : List (UInt32 × List Pdu)}
    (h : Solicits service a t segment e b l) :
    Tiles b e ((l.flatMap Prod.snd).map Pdu.segment) ∧
      ∀ x ∈ l, ∃ b' e', IsBurst (some t) x.1 segment 0 b' e' x.2 := by
  induction h with
  | done => exact ⟨rfl, by simp⟩
  | r2t ha htask hsegment hoffset hlen hal h hps hrest ih =>
    obtain ⟨ps, hps', hburst⟩ := iscsiProcessR2t_burst hserves hpos hseg ha htask hsegment
      (by omega) hal h
    obtain rfl := List.append_cancel_left (hps'.symm.trans hps)
    rw [hoffset] at hburst
    refine ⟨?_, ?_⟩
    · rw [List.flatMap_cons, List.map_append]
      exact hburst.tiles.append ih.1
    · rintro x (_ | ⟨_, hx⟩)
      · exact ⟨_, _, hburst⟩
      · exact ih.2 x hx

end

/-! ## The whole transfer -/

/-- When the payload of the PDU is sent, in however many parts, it is the data of the task at the
offset of its segment; and when the loop goes on to what follows the payload, all of it has been
sent. -/
def Pdu.SendsData (t : TaskPtr) (p : Pdu) : Prop :=
  ∀ {fuel : Nat} {w w' : World} {a : Addr} {q : Pdu} {iov : List ScsiIovec} {r : Option Int},
    w.pdus a = some q → q.segment = p.segment → q.scsiCbdata.task = some t → w.Vectors t iov →
    q.payloadWritten ≤ q.payloadLen → writePayload fuel w a = .ok (r, w') →
    ∃ (chunks : List (List UInt8)) (n : Nat), w'.trace = w.trace ++ chunks.map (Event.sent a) ∧
      q.payloadWritten + n ≤ p.payloadLen ∧
      chunks.flatten = slice (iovecBytes w.mem iov) (p.payloadOffset + q.payloadWritten, n) ∧
      w'.Vectors t iov ∧ (r = none → q.payloadWritten + n = p.payloadLen)

theorem Pdu.sendsData {t : TaskPtr} {p : Pdu} (h : p.payloadOffset + p.payloadLen < 2 ^ 32) :
    p.SendsData t := by
  intro fuel w w' a q iov r hq hseg ht hv hle hrun
  obtain ⟨hoff, hlen⟩ : q.payloadOffset = p.payloadOffset ∧ q.payloadLen = p.payloadLen :=
    Prod.mk.inj hseg
  obtain ⟨chunks, n, htrace, hn, hflat, hv', _, hdone, _⟩ :=
    writePayload_sends hq ht hv (by omega) hle hrun
  rw [hoff] at hflat
  rw [hlen] at hn hdone
  exact ⟨chunks, n, htrace, hn, hflat, hv', hdone⟩

/-- The segments of a WRITE of `e` bytes, of the command `cmd`, of the unsolicited DATA-OUTs `ps`
and of those that answer R2Ts, cover every byte exactly once, and each PDU sends the data of the
task at its offset. -/
structure WriteCovered (t : TaskPtr) (segment : UInt32) (e : Nat) (cmd : Pdu) (ps : List Pdu)
    (l : List (UInt32 × List Pdu)) : Prop where
  tiles : Tiles 0 e ((cmd :: (ps ++ l.flatMap Prod.snd)).map Pdu.segment)
  once : ∀ i, ((cmd :: (ps ++ l.flatMap Prod.snd)).map Pdu.segment).countP (fun s => Covers i s) =
    if i < e then 1 else 0
  bursts : ∀ x ∈ l, ∃ b' e', IsBurst (some t) x.1 segment 0 b' e' x.2
  sends : ∀ p ∈ cmd :: (ps ++ l.flatMap Prod.snd), p.SendsData t

/-- **The data of a WRITE is covered.** For every WRITE that is accepted and whose DATA-OUTs can be
allocated, and every sequence of R2Ts that ask in order for what is left. -/
theorem write_covered {service : World → Res World} (hserves : Serves service) {w w' : World}
    {segment lun : UInt32} {t : TaskPtr} {cb : Option Callback} {d : Option ScsiIovec}
    {privateData : Nat} (hpos : 0 < segment) (hseg : segment.toNat < 2 ^ 24)
    (hsegment : w.taker.iscsi.targetMaxRecvDataSegmentLength = segment)
    (hwrite : (w.tasks t).xferDir = .write) (hal : w.taker.DataOutsAllocated t d)
    (h : iscsiScsiCommandAsync service w lun t cb d privateData = .ok (0, w')) :
    ∃ cmd ps b, queuedPdus w'.trace = queuedPdus w.trace ++ cmd :: ps ∧
      CommandBurst segment w.taker.iscsi t (w.tasks t) cmd ps b ∧
      ∀ a l, Solicits service a t segment (w.tasks t).expxferlen.toNat b l →
        WriteCovered t segment (w.tasks t).expxferlen.toNat cmd ps l := by
  obtain ⟨cmd, ps, b, hqueued, hburst⟩ :=
    iscsiScsiCommandAsync_burst hserves hpos hseg hsegment hwrite hal h
  refine ⟨cmd, ps, b, hqueued, hburst, fun a l hl => ?_⟩
  have he := (w.tasks t).expxferlen.toNat_lt
  obtain ⟨hsol, hbursts⟩ := hl.bursts hserves hpos hseg (by omega)
  have htiles : Tiles 0 (w.tasks t).expxferlen.toNat
      ((cmd :: (ps ++ l.flatMap Prod.snd)).map Pdu.segment) := by
    rw [List.map_cons, List.map_append]
    refine ⟨hburst.offset, ?_⟩
    rw [show 0 + cmd.segment.2 = cmd.payloadLen from Nat.zero_add _]
    exact hburst.burst.tiles.append hsol
  refine ⟨htiles, fun i => ?_, hbursts, fun p hp => Pdu.sendsData ?_⟩
  · rw [htiles.countP_covers]
    simp
  · have := (htiles.mem_le (List.mem_map_of_mem hp)).2
    change p.payloadOffset + p.payloadLen ≤ _ at this
    omega

/-! ## A DATA-OUT that cannot be allocated -/

/-- A session that sends unsolicited data, in segments of up to eight bytes, with a task that
writes eight bytes and others without data, and these outcomes of the next `send`s and
allocations. -/
def writingSession (sends : List SendResult) (allocs : List Bool) : World :=
  { loggedIn sends with
    iscsi := { (loggedIn sends).iscsi with
      firstBurstLength := 8, targetMaxRecvDataSegmentLength := 8 }
    tasks := fun t => if t = 0 then { xferDir := .write, expxferlen := 8 } else {}
    allocs }

/-- A `service` that finds the socket not ready. -/
def idleService (w : World) : Res World := .ok w

theorem idleService_serves : Serves idleService := by
  intro w w' h
  obtain rfl := Except.ok.inj h
  exact .refl

/-- The WRITE is submitted. -/
def submitWrite (w : World) : Res (Int × World) :=
  iscsiScsiCommandAsync idleService w 0 0 none none 0

/-- Eight bytes go out in one unsolicited DATA-OUT. -/
theorem write_covered_one : ∃ w', submitWrite (writingSession [] []) = .ok (0, w') ∧
    ∃ cmd ps b, queuedPdus w'.trace = queuedPdus (writingSession [] []).trace ++ cmd :: ps ∧
      CommandBurst 8 (writingSession [] []).taker.iscsi 0 ((writingSession [] []).tasks 0)
        cmd ps b ∧
      ∀ a l, Solicits idleService a 0 8 8 b l → WriteCovered 0 8 8 cmd ps l := by
  have hret : (submitWrite (writingSession [] [])).toOption.map Prod.fst = some 0 := by
    decide +kernel
  rcases h : submitWrite (writingSession [] []) with _ | ⟨r, w'⟩
  · rw [h] at hret
    cases hret
  · rw [h] at hret
    obtain rfl : r = 0 := Option.some.inj hret
    exact ⟨w', rfl, write_covered idleService_serves (by decide) (by decide) rfl rfl
      (by intro b hb; simp [writingSession, World.taker, loggedIn] at hb) h⟩

/-- A command is sent and waits for its response; then the WRITE is submitted, and its DATA-OUT
cannot be allocated. -/
def submitUnallocated : Res (World × Int × World) := do
  let (_, w) ← iscsiScsiCommandAsync writeService
    (writingSession [.accepted 47] [true, true, true, true, false]) 0 1 none none 0
  let (ret, w') ← submitWrite w
  .ok (w, ret, w')

/-- The PDU of a WRITE of eight bytes is queued without the F flag, and its DATA-OUT cannot be
allocated: the command is accepted, and no DATA-OUT carries the data. -/
theorem dataOut_allocation_fails :
    ¬∀ (service : World → Res World) (w w' : World) (segment lun : UInt32) (t : TaskPtr)
      (cb : Option Callback) (d : Option ScsiIovec) (privateData : Nat), Serves service →
      0 < segment → segment.toNat < 2 ^ 24 →
      w.taker.iscsi.targetMaxRecvDataSegmentLength = segment → (w.tasks t).xferDir = .write →
      iscsiScsiCommandAsync service w lun t cb d privateData = .ok (0, w') →
      ∃ cmd ps b, queuedPdus w'.trace = queuedPdus w.trace ++ cmd :: ps ∧
        CommandBurst segment w.taker.iscsi t (w.tasks t) cmd ps b ∧
        ∀ a l, Solicits service a t segment (w.tasks t).expxferlen.toNat b l →
          WriteCovered t segment (w.tasks t).expxferlen.toNat cmd ps l := by
  intro hall
  have hrun : submitUnallocated.toOption.map (fun x =>
      (((queuedPdus x.2.2.trace).drop (queuedPdus x.1.trace).length).map Pdu.final, x.2.1,
        x.1.taker.iscsi.targetMaxRecvDataSegmentLength, (x.1.tasks 0).xferDir)) =
      some ([false], 0, 8, .write) := by
    decide +kernel
  rcases h : submitUnallocated with _ | ⟨w, r, w'⟩
  · rw [h] at hrun
    cases hrun
  rw [h] at hrun
  obtain ⟨hfinal, hrest⟩ := Prod.mk.inj (Option.some.inj hrun)
  obtain ⟨hr, hrest⟩ := Prod.mk.inj hrest
  obtain ⟨hsegment, hwrite⟩ := Prod.mk.inj hrest
  unfold submitUnallocated at h
  obtain ⟨⟨_, v⟩, _, h⟩ := Outcome.bind_eq_ok.1 h
  obtain ⟨⟨r', v'⟩, hsub, h⟩ := Outcome.bind_eq_ok.1 h
  simp only [Except.ok.injEq, Prod.mk.injEq] at h
  obtain ⟨rfl, rfl, rfl⟩ := h
  simp only at hfinal hr hsegment hwrite
  subst hr
  obtain ⟨cmd, ps, b, hqueued, hburst, _⟩ := hall idleService v v' 8 0 0 none none 0
    idleService_serves (by decide) (by decide) hsegment hwrite hsub
  rw [hqueued, List.drop_left, List.map_cons] at hfinal
  obtain ⟨hcmd, hps⟩ := List.cons.inj hfinal
  rw [hburst.final.2 (List.map_eq_nil_iff.1 hps)] at hcmd
  cases hcmd

end Libiscsi
