import Libiscsi.DataOutSubmit
import Libiscsi.Lib.Tiling

/-!
# Bursts of DATA-OUTs

`iscsi_send_data_out` cuts a range of the data of a command into DATA-OUTs. What it queues is read
off the trace (`queuedPdus`), where nothing that `service` does is recorded as queued. The
DATA-OUTs of one call are a burst (`IsBurst`): their segments tile the range, their DataSNs are
consecutive and the last one has the Final bit.
-/

namespace Libiscsi

open Tiling

/-- The PDUs that were queued. -/
def queuedPdus (trace : List Event) : List Pdu :=
  trace.filterMap fun
    | .queued _ p => some p
    | _ => none

@[simp] theorem queuedPdus_append (l l' : List Event) :
    queuedPdus (l ++ l') = queuedPdus l ++ queuedPdus l' := List.filterMap_append

/-! ## Service queues nothing -/

/-- Nothing was queued. -/
def QueuesNothing (w w' : World) : Prop := queuedPdus w'.trace = queuedPdus w.trace

namespace QueuesNothing

variable {w w' w'' : World} {a : Addr}

protected theorem trans (h : QueuesNothing w w') (h' : QueuesNothing w' w'') :
    QueuesNothing w w'' := Eq.trans h' h

theorem modify (f : Context → Context) : QueuesNothing w (w.modify f) := rfl

theorem called (w : World) (a : Addr) (p : Pdu) (status : Status) :
    QueuesNothing w (w.called a p status) := by
  have hnone : queuedPdus (p.callbackEvents a status) = [] := by
    unfold Pdu.callbackEvents
    split
    · rfl
    · split <;> rfl
  simp [QueuesNothing, World.called, hnone]

theorem release (w : World) (a : Addr) : QueuesNothing w (w.release a) := by
  simp [QueuesNothing, World.release, queuedPdus]

theorem completePdu {status : Status} (h : completePdu w a status = .ok w') :
    QueuesNothing w w' := by
  unfold Libiscsi.completePdu at h
  obtain ⟨w₁, h₁, h₂⟩ := Outcome.bind_eq_ok.1 h
  obtain ⟨p, _, rfl⟩ := invokeCallback_called h₁
  obtain ⟨_, rfl⟩ := iscsiFreePdu_eq_ok.1 h₂
  exact (called w a p status).trans (release _ a)

theorem completeTmp {tmp : List Addr} {status : Status} (h : completeTmp w tmp status = .ok w') :
    QueuesNothing w w' := by
  cases tmp with
  | nil =>
    obtain rfl := Except.ok.inj h
    exact rfl
  | cons a tmp => exact completePdu h

theorem closeGap {gap : UInt32} (h : closeGap w a gap = .ok w') : QueuesNothing w w' := by
  unfold Libiscsi.closeGap at h
  split at h
  · obtain ⟨p, _, h⟩ := Outcome.bind_eq_ok.1 h
    obtain ⟨_, _, hframe, _⟩ := iscsiPduSetCmdsn_eq_ok h
    rw [hframe]
    exact rfl
  · obtain rfl := Except.ok.inj h
    exact rfl

theorem unlinkOutqueue {sel : World → Pdu → Bool} : ∀ {l tmp tmp' : List Addr} {gap : UInt32}
    {w w' : World}, unlinkOutqueue sel l gap tmp w = .ok (tmp', w') → QueuesNothing w w'
  | [], _, _, _, w, w', h => by
    obtain ⟨_, rfl⟩ := Prod.mk.inj (Except.ok.inj h)
    exact rfl
  | a :: l, tmp, tmp', gap, w, w', h => by
    unfold Libiscsi.unlinkOutqueue at h
    obtain ⟨w₁, h₁, h⟩ := Outcome.bind_eq_ok.1 h
    have hgap := closeGap h₁
    obtain ⟨p, _, h⟩ := Outcome.bind_eq_ok.1 h
    split at h
    · obtain ⟨outqueue, _, h⟩ := Outcome.bind_eq_ok.1 h
      exact (hgap.trans (modify _)).trans (unlinkOutqueue h)
    · exact hgap.trans (unlinkOutqueue h)

theorem timeoutWaitpdu {t : Nat} : ∀ {l tmp tmp' : List Addr} {w w' : World},
    timeoutWaitpdu t l tmp w = .ok (tmp', w') → QueuesNothing w w'
  | [], _, _, w, w', h => by
    obtain ⟨_, rfl⟩ := Prod.mk.inj (Except.ok.inj h)
    exact rfl
  | a :: l, tmp, tmp', w, w', h => by
    unfold Libiscsi.timeoutWaitpdu at h
    obtain ⟨p, _, h⟩ := Outcome.bind_eq_ok.1 h
    split at h
    · obtain ⟨busy, _, h⟩ := Outcome.bind_eq_ok.1 h
      split at h
      · exact timeoutWaitpdu h
      · obtain ⟨waitpdu, _, h⟩ := Outcome.bind_eq_ok.1 h
        exact (modify _).trans (timeoutWaitpdu h)
    · exact timeoutWaitpdu h

theorem timeoutScan (h : iscsiTimeoutScan w = .ok w') : QueuesNothing w w' := by
  unfold iscsiTimeoutScan at h
  obtain ⟨⟨tmp, w₁⟩, h₁, h⟩ := Outcome.bind_eq_ok.1 h
  obtain ⟨w₂, h₂, h⟩ := Outcome.bind_eq_ok.1 h
  obtain ⟨⟨tmp', w₃⟩, h₃, h₄⟩ := Outcome.bind_eq_ok.1 h
  exact (((unlinkOutqueue h₁).trans (completeTmp h₂)).trans (timeoutWaitpdu h₃)).trans
    (completeTmp h₄)

theorem takeHead {r : Option Int} (h : takeHead w a = .ok (r, w')) : QueuesNothing w w' := by
  obtain ⟨_, rfl⟩ | ⟨p, _, ⟨_, _, _, rfl⟩ | ⟨_, q, _, rfl⟩⟩ := takeHead_cases h
  · exact rfl
  · exact rfl
  · simp [QueuesNothing, queuedPdus]

theorem sending (h : Sending a w w') : QueuesNothing w w' := by
  obtain ⟨sent, ht⟩ := h.trace
  have hnone : queuedPdus (sent.map (Event.sent a)) = [] := by
    simp [queuedPdus, List.filterMap_map]
  rw [QueuesNothing, ht, queuedPdus_append, hnone, List.append_nil]

theorem writeDone (h : writeDone w a = .ok w') : QueuesNothing w w' := by
  unfold Libiscsi.writeDone at h
  obtain ⟨p, _, h⟩ := Outcome.bind_eq_ok.1 h
  obtain ⟨w₂, h₂, h⟩ := Outcome.bind_eq_ok.1 h
  obtain rfl := Except.ok.inj h
  have hcork : ∀ w₁ : World, (w₁ = if p.hasFlag iscsiPduCorkWhenSent then
      w.modify fun c => { c with isCorked := true } else w) → QueuesNothing w w₁ := by
    rintro w₁ rfl
    split <;> exact rfl
  refine (hcork _ rfl).trans (show QueuesNothing _ w₂ from ?_)
  unfold releaseSent at h₂
  split at h₂
  · obtain ⟨_, rfl⟩ := iscsiFreePdu_eq_ok.1 h₂
    exact release _ a
  · obtain rfl := Except.ok.inj h₂
    exact rfl

theorem write {r : Int} (h : iscsiWriteToSocket w = .ok (r, w')) : QueuesNothing w w' := by
  have hrun := iscsiWriteToSocket_run h
  clear h
  induction hrun with
  | refl => exact rfl
  | tail _ hstep ih =>
    obtain ⟨act, hstep⟩ := hstep
    cases hstep with
    | take _ _ h => exact ih.trans (takeHead h)
    | sending _ h => exact ih.trans (sending h)
    | done _ h => exact ih.trans (writeDone h)

/-- **A run of `service` queues nothing.** -/
theorem of_run (hrun : Run ServiceStep w w') : QueuesNothing w w' := by
  induction hrun with
  | refl => exact rfl
  | tail _ hstep ih =>
    obtain ⟨act, hstep⟩ := hstep
    cases hstep with
    | write h => exact ih.trans (write h)
    | timeoutScan h => exact ih.trans (timeoutScan h)

end QueuesNothing

/-! ## Queueing a PDU that is not for immediate delivery -/

/-- What a submission leaves as it is. -/
structure Submits (w w' : World) : Prop where
  olds : w'.olds = w.olds
  brk : w.brk ≤ w'.brk
  segment : w'.iscsi.targetMaxRecvDataSegmentLength = w.iscsi.targetMaxRecvDataSegmentLength
  firstBurst : w'.iscsi.firstBurstLength = w.iscsi.firstBurstLength

theorem Submits.refl (w : World) : Submits w w := ⟨rfl, le_refl _, rfl, rfl⟩

theorem Submits.trans {w w' w'' : World} (h : Submits w w') (h' : Submits w' w'') :
    Submits w w'' :=
  ⟨h'.olds.trans h.olds, h.brk.trans h'.brk, h'.segment.trans h.segment,
    h'.firstBurst.trans h.firstBurst⟩

theorem ServiceKeeps.submits {w w' : World} (h : ServiceKeeps w w') : Submits w w' :=
  ⟨h.olds, le_of_eq h.brk.symm, h.segment, h.firstBurst⟩

section
variable {service : World → Res World} {w w' : World} {a b : Addr} {p : Pdu}

/-- `enqueue` for a PDU that is not for immediate delivery. -/
theorem enqueue_queued (hp : w.pdus a = some p) (himm : p.immediate = false)
    (h : enqueue w a = .ok w') :
    ∃ outqueue, w' = w.put (w.iscsi.setOutqueue outqueue)
      (Function.update w.pdus a (some { p with scsiTimeout := w.timeoutOf })) w.tasks
      (w.trace ++ [.queued a { p with scsiTimeout := w.timeoutOf }]) := by
  unfold enqueue at h
  rw [World.deref_eq_ok.2 hp, Outcome.ok_bind] at h
  obtain ⟨w₁, h₁, h⟩ := Outcome.bind_eq_ok.1 h
  unfold immediateCmdsn at h₁
  rw [if_neg (by simpa [Pdu.immediate] using himm)] at h₁
  obtain rfl := Except.ok.inj h₁
  rw [World.deref_eq_ok.2 (Function.update_self ..), Outcome.ok_bind] at h
  obtain ⟨outqueue, _, h⟩ := Outcome.bind_eq_ok.1 h
  obtain rfl := Except.ok.inj h
  exact ⟨outqueue, rfl⟩

/-- `iscsi_queue_pdu` for a PDU that is not for immediate delivery queues it and nothing else, and
every PDU that is left is the request it was. -/
theorem iscsiQueuePdu_queued (hserves : Serves service) (hp : w.pdus a = some p)
    (himm : p.immediate = false) (h : iscsiQueuePdu service w a = .ok w') :
    queuedPdus w'.trace = queuedPdus w.trace ++ [{ p with scsiTimeout := w.timeoutOf }] ∧
      Submits w w' ∧ w'.allocs = w.allocs ∧
      (∀ q, w'.pdus a = some q → ({ p with scsiTimeout := w.timeoutOf } : Pdu).SameRequest q) ∧
      ∀ b ≠ a, ∀ q, w'.pdus b = some q → ∃ r, w.pdus b = some r ∧ r.SameRequest q := by
  obtain ⟨w₁, henq, hserve⟩ := iscsiAddToOutqueue_cases h
  obtain ⟨outqueue, rfl⟩ := enqueue_queued hp himm henq
  set w₁ := w.put (w.iscsi.setOutqueue outqueue)
    (Function.update w.pdus a (some { p with scsiTimeout := w.timeoutOf })) w.tasks
    (w.trace ++ [.queued a { p with scsiTimeout := w.timeoutOf }]) with hw₁
  obtain ⟨hkeep, hnothing⟩ : ServiceKeeps w₁ w' ∧ QueuesNothing w₁ w' := by
    rcases hserve with rfl | hserve
    · exact ⟨.refl _, rfl⟩
    · exact ⟨.of_run (hserves _ _ hserve), .of_run (hserves _ _ hserve)⟩
  refine ⟨?_, ?_, hkeep.allocs, fun q hq => ?_, fun b hb q hq => ?_⟩
  · rw [hnothing, hw₁, World.put_trace, queuedPdus_append]
    rfl
  · have hfirst : Submits w w₁ := ⟨rfl, le_refl _, rfl, rfl⟩
    exact hfirst.trans hkeep.submits
  · obtain ⟨r, hr, hrq⟩ := hkeep.pdus a q hq
    rw [hw₁, World.put_pdus, Function.update_self, Option.some.injEq] at hr
    exact hr ▸ hrq
  · obtain ⟨r, hr, hrq⟩ := hkeep.pdus b q hq
    rw [hw₁, World.put_pdus, Function.update_of_ne hb] at hr
    exact ⟨r, hr, hrq⟩

end

/-! ## The header of a DATA-OUT -/

namespace Pdu

/-- The segment of the data of its command that a PDU carries. -/
def segment (p : Pdu) : Nat × Nat := (p.payloadOffset, p.payloadLen)

/-- The F bit of the header. -/
def final (p : Pdu) : Bool := byte p.outdata 1 &&& iscsiPduScsiFinal != 0

/-- The DataSN in the header. -/
def headerDatasn (p : Pdu) : UInt32 := scsiGetUint32 p.outdata 36

/-- The PDU is a DATA-OUT for a task with a target transfer tag, and its header says which
segment it carries. -/
structure DataOutOf (p : Pdu) (task : Option TaskPtr) (ttt : UInt32) : Prop where
  opcode : p.opcode = iscsiPduDataOut
  task : p.scsiCbdata.task = task
  ttt : scsiGetUint32 p.outdata 20 = ttt
  offset : (scsiGetUint32 p.outdata 40).toNat = p.payloadOffset
  size : iscsiGetPduDataSize p.outdata = p.payloadLen

section
variable (pdu cmd : Pdu) (ttt offset len : UInt32) (last : Bool) (h : 48 ≤ pdu.outdata.length)
include h

/-- The header of a DATA-OUT. -/
theorem asDataOut_fields :
    scsiGetUint32 (pdu.asDataOut cmd ttt offset len last).outdata 20 = ttt ∧
      scsiGetUint32 (pdu.asDataOut cmd ttt offset len last).outdata 36 = cmd.datasn ∧
      scsiGetUint32 (pdu.asDataOut cmd ttt offset len last).outdata 40 = offset ∧
      scsiGetUint32 (pdu.asDataOut cmd ttt offset len last).outdata 4 = len ∧
      byte (pdu.asDataOut cmd ttt offset len last).outdata 1 =
        if last then iscsiPduScsiFinal else 0 := by
  simp only [asDataOut, setPduflags, setLun, setTtt, setDatasn, setBufferoffset,
    setDataSegmentLength, setByte, setField, UInt32.ofNat_toNat]
  refine ⟨?_, ?_, ?_, ?_, ?_⟩
  · rw [scsiGetUint32_setUint32 (by omega), scsiGetUint32_setUint32 (by omega),
      scsiGetUint32_setUint32 (by omega), scsiGetUint32_set (by simp; omega)]
  · rw [scsiGetUint32_setUint32 (by omega), scsiGetUint32_setUint32 (by omega),
      scsiGetUint32_set (by simp; omega)]
  · rw [scsiGetUint32_setUint32 (by omega), scsiGetUint32_set (by simp; omega)]
  · rw [scsiGetUint32_set (by simp; omega)]
  · rw [byte_scsiSetUint32 (by omega), byte_scsiSetUint32 (by omega),
      byte_scsiSetUint32 (by omega), byte_scsiSetUint32 (by omega),
      byte_scsiSetUint16 (by omega), byte_set_eq (by omega)]

end

end Pdu

/-- A data segment length that fits its 24 bits is read back. -/
theorem iscsiGetPduDataSize_eq {hdr : List UInt8} {len : UInt32} (h : scsiGetUint32 hdr 4 = len)
    (hlen : len.toNat < 2 ^ 24) : iscsiGetPduDataSize hdr = len.toNat := by
  unfold iscsiGetPduDataSize
  rw [h, UInt32.toNat_and, show (0x00ffffff : UInt32).toNat = 2 ^ 24 - 1 from rfl,
    Nat.and_two_pow_sub_one_eq_mod, Nat.mod_eq_of_lt hlen]

/-- The PDU that a turn of `iscsi_send_data_out` makes. -/
theorem asDataOut_dataOutOf {pdu : Pdu} (cmd : Pdu) (ttt offset : UInt32) {len : UInt32}
    (last : Bool) (hsize : 48 ≤ pdu.outdata.length) (hop : byte pdu.outdata 0 = iscsiPduDataOut)
    (hlen : len.toNat < 2 ^ 24) :
    (pdu.asDataOut cmd ttt offset len last).DataOutOf cmd.scsiCbdata.task ttt ∧
      (pdu.asDataOut cmd ttt offset len last).segment = (offset.toNat, len.toNat) ∧
      (pdu.asDataOut cmd ttt offset len last).headerDatasn = cmd.datasn ∧
      (pdu.asDataOut cmd ttt offset len last).final = last := by
  obtain ⟨httt, hsn, hoff, hdsl, hflags⟩ := Pdu.asDataOut_fields pdu cmd ttt offset len last hsize
  refine ⟨⟨?_, rfl, httt, ?_, ?_⟩, rfl, hsn, ?_⟩
  · rw [Pdu.opcode, byte_asDataOut, hop]
    rfl
  · rw [hoff]
    rfl
  · rw [iscsiGetPduDataSize_eq hdsl hlen]
    rfl
  · rw [Pdu.final, hflags]
    cases last <;> rfl

/-- The timeout of a PDU is no part of what it carries. -/
theorem Pdu.DataOutOf.withTimeout {p : Pdu} {task : Option TaskPtr} {ttt : UInt32}
    (h : p.DataOutOf task ttt) (timeout : Nat) :
    ({ p with scsiTimeout := timeout } : Pdu).DataOutOf task ttt :=
  ⟨h.opcode, h.task, h.ttt, h.offset, h.size⟩

/-! ## Bursts -/

/-- A burst of DATA-OUTs for a task, from the offset `b` to the offset `e`: the segments tile the
range and have from one to `segment` bytes, the DataSNs are consecutive from `n` on, and the Final
bit is set in the last DATA-OUT only. -/
structure IsBurst (task : Option TaskPtr) (ttt segment n : UInt32) (b e : Nat) (ps : List Pdu) :
    Prop where
  tiles : Tiles b e (ps.map Pdu.segment)
  dataOut : ∀ p ∈ ps, p.DataOutOf task ttt
  bound : ∀ p ∈ ps, 0 < p.payloadLen ∧ p.payloadLen ≤ segment.toNat
  datasn : ∀ i (h : i < ps.length), ps[i].headerDatasn = n + UInt32.ofNat i
  final : ∀ i (h : i < ps.length), ps[i].final ↔ i + 1 = ps.length

namespace IsBurst

variable {task : Option TaskPtr} {ttt segment n : UInt32} {b e : Nat} {p : Pdu} {ps : List Pdu}

theorem nil : IsBurst task ttt segment n b b [] :=
  ⟨rfl, by simp, by simp, by simp, by simp⟩

/-- One more DATA-OUT at the beginning of a burst. -/
theorem cons (h : IsBurst task ttt segment (n + 1) (b + p.payloadLen) e ps)
    (hp : p.DataOutOf task ttt) (hb : p.payloadOffset = b)
    (hlen : 0 < p.payloadLen ∧ p.payloadLen ≤ segment.toNat) (hn : p.headerDatasn = n)
    (hf : p.final ↔ ps = []) :
    IsBurst task ttt segment n b e (p :: ps) := by
  refine ⟨⟨hb, h.tiles⟩, ?_, ?_, fun i hi => ?_, fun i hi => ?_⟩
  · rintro q (_ | ⟨_, hq⟩)
    · exact hp
    · exact h.dataOut q hq
  · rintro q (_ | ⟨_, hq⟩)
    · exact hlen
    · exact h.bound q hq
  · cases i with
    | zero =>
      rw [List.getElem_cons_zero, hn]
      simp
    | succ i =>
      rw [List.getElem_cons_succ, h.datasn i (by simpa using hi), UInt32.ofNat_add]
      grind
  · cases i with
    | zero =>
      rw [List.getElem_cons_zero, hf, List.length_cons, ← List.length_eq_zero_iff]
      omega
    | succ i =>
      rw [List.getElem_cons_succ, h.final i (by simpa using hi), List.length_cons]
      omega

/-- A burst over an empty range is empty. -/
theorem eq_nil (h : IsBurst task ttt segment n b b ps) : ps = [] := by
  have hlen := h.tiles.length
  cases ps with
  | nil => rfl
  | cons p ps =>
    have hpos := (h.bound p (by simp)).1
    simp only [List.map_cons, List.sum_cons, Pdu.segment] at hlen
    omega

end IsBurst

/-! ## `iscsi_send_data_out` -/

section
variable {service : World → Res World} {w w' : World} {a : Addr} {cmd : Pdu}

/-- One turn of the loop queues one DATA-OUT. -/
theorem sendOneDataOut_queued (hserves : Serves service) {ttt offset len : UInt32}
    {last sent : Bool} (ha : a < w.brk) (hcmd : w.pdus a = some cmd) (hlen : len.toNat < 2 ^ 24)
    (hal : ∀ b ∈ w.allocs.take 2, b = true)
    (h : sendOneDataOut service w a ttt offset len last = .ok (sent, w')) :
    sent = true ∧ Submits w w' ∧ w'.allocs = w.allocs.drop 2 ∧
      (∀ q, w'.pdus a = some q → ({ cmd with datasn := cmd.datasn + 1 } : Pdu).SameRequest q) ∧
      ∃ d, queuedPdus w'.trace = queuedPdus w.trace ++ [d] ∧
        d.DataOutOf cmd.scsiCbdata.task ttt ∧ d.segment = (offset.toNat, len.toNat) ∧
        d.headerDatasn = cmd.datasn ∧ d.final = last := by
  unfold sendOneDataOut at h
  rw [World.deref_eq_ok.2 hcmd, Outcome.ok_bind, iscsiAllocatePdu_ok hal] at h
  simp only at h
  set fresh := w.iscsi.freshPdu iscsiPduDataOut iscsiPduNoPdu cmd.itt
    (iscsiPduDropOnReconnect ||| iscsiPduDeleteWhenSent) with hfresh
  rw [World.deref_eq_ok.2 (w.allocated_pdus_self _), Outcome.ok_bind] at h
  obtain ⟨w₂, hq, h⟩ := Outcome.bind_eq_ok.1 h
  obtain ⟨rfl, rfl⟩ := Prod.mk.inj (Except.ok.inj h)
  have hne : a ≠ w.brk := ne_of_lt ha
  have hsize : 48 ≤ fresh.outdata.length := by
    rw [hfresh, freshPdu_length]
    exact iscsiHeaderSize_ge _
  have hop : byte fresh.outdata 0 = iscsiPduDataOut := by rw [hfresh, byte_freshPdu]
  clear_value fresh
  obtain ⟨hof, hsegment, hsn, hf⟩ :=
    asDataOut_dataOutOf cmd ttt offset last hsize hop hlen
  have himm : (fresh.asDataOut cmd ttt offset len last).immediate = false := by
    rw [Pdu.immediate, byte_asDataOut, hop]
    rfl
  generalize fresh.asDataOut cmd ttt offset len last = d at hq hof hsegment hsn hf himm
  set w₁ := ((w.allocated fresh).setPdu w.brk d).setPdu a
    { cmd with datasn := cmd.datasn + 1 } with hw₁
  have hd : w₁.pdus w.brk = some d := by
    rw [hw₁, World.setPdu_pdus, Function.update_of_ne hne.symm, World.setPdu_pdus,
      Function.update_self]
  have ha₁ : w₁.pdus a = some { cmd with datasn := cmd.datasn + 1 } := Function.update_self ..
  have hsub₁ : Submits w w₁ := ⟨rfl, Nat.le_succ _, rfl, rfl⟩
  obtain ⟨hqueued, hsub, hallocs, _, hrest⟩ := iscsiQueuePdu_queued hserves hd himm hq
  refine ⟨rfl, hsub₁.trans hsub, hallocs, fun q hq => ?_, _, hqueued, hof.withTimeout _,
    hsegment, hsn, hf⟩
  obtain ⟨r, hr, hrq⟩ := hrest a hne q hq
  rw [ha₁, Option.some.injEq] at hr
  exact hr ▸ hrq

/-- **The DATA-OUTs that `iscsi_send_data_out` queues are a burst** over the range it is called
for. -/
theorem iscsiSendDataOut_burst (hserves : Serves service) {ttt segment : UInt32}
    (hpos : 0 < segment) (hseg : segment.toNat < 2 ^ 24) :
    ∀ {fuel : Nat} {offset len : UInt32} {cmd : Pdu} {w w' : World} {r : Int},
    a < w.brk → (∀ q, w.pdus a = some q → cmd.SameRequest q) →
    w.iscsi.targetMaxRecvDataSegmentLength = segment →
    offset.toNat + len.toNat < 2 ^ 32 →
    (∀ b ∈ w.allocs.take (2 * dataOutTurns fuel segment len), b = true) →
    iscsiSendDataOut service fuel w a ttt offset len = .ok (r, w') →
    r = 0 ∧ Submits w w' ∧ ∃ ps, queuedPdus w'.trace = queuedPdus w.trace ++ ps ∧
      IsBurst cmd.scsiCbdata.task ttt segment cmd.datasn offset.toNat (offset.toNat + len.toNat) ps
  | fuel, offset, len, cmd, w, w', r, ha, hcmd, hsegment, hrange, hal, h => by
    unfold iscsiSendDataOut at h
    split at h
    swap
    · rename_i hlen
      obtain ⟨rfl, rfl⟩ := Prod.mk.inj (Except.ok.inj h)
      have hzero : len.toNat = 0 := by
        have := UInt32.lt_iff_toNat_lt.not.1 hlen
        simpa using this
      refine ⟨rfl, .refl _, [], by simp, ?_⟩
      rw [hzero]
      exact .nil
    rename_i hlen
    cases fuel with
    | zero => cases h
    | succ fuel =>
      simp only at h
      obtain ⟨⟨sent, w₁⟩, h₁, h⟩ := Outcome.bind_eq_ok.1 h
      rw [hsegment] at h₁ h
      rw [dataOutTurns, if_pos hlen, show ∀ n, 2 * (1 + n) = 2 + 2 * n by omega,
        List.take_add] at hal
      obtain ⟨p, hp⟩ : ∃ p, w.pdus a = some p := by
        unfold sendOneDataOut at h₁
        obtain ⟨p, hp, _⟩ := Outcome.bind_eq_ok.1 h₁
        exact ⟨p, World.deref_eq_ok.1 hp⟩
      have hreq := hcmd p hp
      set n := min len segment with hn
      have hnlen : n.toNat = min len.toNat segment.toNat := by
        rw [hn, UInt32.toNat_min]
      have hlen' : 0 < len.toNat := UInt32.lt_iff_toNat_lt.1 hlen
      have hpos' : 0 < segment.toNat := UInt32.lt_iff_toNat_lt.1 hpos
      have hsub : (len - n).toNat = len.toNat - n.toNat :=
        UInt32.toNat_sub_of_le _ _ (UInt32.le_iff_toNat_le.2 (by omega))
      have hadd : (offset + n).toNat = offset.toNat + n.toNat := by
        rw [UInt32.toNat_add, Nat.mod_eq_of_lt (by omega)]
      obtain ⟨rfl, hsub₁, hallocs, hnext, d, hd, hof, hdseg, hsn, hf⟩ :=
        sendOneDataOut_queued hserves ha hp (by omega)
          (fun b hb => hal b (List.mem_append_left _ hb)) h₁
      rw [if_pos rfl] at h
      have hnext' : ∀ q, w₁.pdus a = some q →
          ({ cmd with datasn := cmd.datasn + 1 } : Pdu).SameRequest q := fun q hq => by
        have := hnext q hq
        unfold Pdu.SameRequest at hreq this ⊢
        rw [this, hreq]
      obtain ⟨rfl, hsub₂, ps, hps, hburst⟩ := iscsiSendDataOut_burst hserves hpos hseg
        (lt_of_lt_of_le ha hsub₁.brk) hnext' (hsub₁.segment.trans hsegment) (by omega)
        (fun b hb => hal b (List.mem_append_right _ (by rwa [hallocs] at hb))) h
      refine ⟨rfl, hsub₁.trans hsub₂, d :: ps, by rw [hps, hd]; simp, ?_⟩
      obtain ⟨hdoff, hdlen⟩ := Prod.mk.inj hdseg
      rw [hadd, hsub, show offset.toNat + n.toNat + (len.toNat - n.toNat) =
        offset.toNat + len.toNat by omega] at hburst
      have hdlen' : d.payloadLen = n.toNat := hdlen
      refine .cons (by rw [hdlen']; exact hburst) (by rw [← hreq.scsiCbdata]; exact hof) hdoff
        (by rw [hdlen']; omega) (hsn.trans hreq.datasn) ?_
      rw [hf, beq_iff_eq]
      constructor
      · intro hlast
        rw [show offset.toNat + len.toNat = offset.toNat + n.toNat by rw [← hlast]] at hburst
        exact hburst.eq_nil
      · intro hnil
        have htiles := hburst.tiles
        rw [hnil, List.map_nil, Tiles.nil] at htiles
        exact UInt32.toNat_inj.1 (by omega)

end

end Libiscsi
