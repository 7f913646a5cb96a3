import Libiscsi.BurstFailure
import Libiscsi.WriteCover
import Libiscsi.LoginReply

/-!
# The lengths of written segments

`iscsi_send_data_out` takes the smaller of what is left and the segment length that the target
declared, which is stored as it came, and stores the result over the four bytes of the header that
also have the length of the additional header segments. With a segment length of zero it makes
empty DATA-OUTs without end; with 2²⁴ or more it can run into the other field (`write_split_iff`).
-/

namespace Libiscsi

open CString

/-! ## Segments -/

/-- The data segment of a PDU is not empty, its length is in the three bytes of the header for it,
and the byte before them, for additional header segments, is zero. -/
structure Pdu.LegalSegment (p : Pdu) : Prop where
  noAhs : byte p.outdata 4 = 0
  size : iscsiGetPduDataSize p.outdata = p.payloadLen
  pos : 0 < p.payloadLen
  lt : p.payloadLen < 2 ^ 24

/-- A length that was stored is legal if it is positive and fits three bytes. -/
theorem Pdu.legalSegment_iff {p : Pdu} {len : UInt32} (hsize : scsiGetUint32 p.outdata 4 = len)
    (hlen : p.payloadLen = len.toNat) : p.LegalSegment ↔ 0 < len ∧ len.toNat < 2 ^ 24 := by
  rw [UInt32.lt_iff_toNat_lt]
  constructor
  · intro h
    exact ⟨hlen ▸ h.pos, hlen ▸ h.lt⟩
  · rintro ⟨hpos, hlt⟩
    refine ⟨?_, ?_, hlen ▸ hpos, hlen ▸ hlt⟩
    · have hnat := toNat_scsiGetUint32 p.outdata 4
      rw [hsize] at hnat
      refine UInt8.toNat_inj.1 (?_ : (byte p.outdata 4).toNat = 0)
      omega
    · rw [iscsiGetPduDataSize_eq hsize hlt, hlen]

/-! ## One turn -/

/-- The length of the DATA-OUT of a turn. -/
def World.segmentOf (w : World) (len : UInt32) : UInt32 :=
  min len w.iscsi.targetMaxRecvDataSegmentLength

/-- There are the command and the memory for a DATA-OUT. -/
structure World.CanSend (w : World) (cmd : Addr) : Prop where
  live : (w.pdus cmd).isSome
  first : w.allocs.headD true = true
  second : w.allocs.tail.headD true = true

/-- The DATA-OUT that a turn of the loop hands to `iscsi_queue_pdu`. -/
def madeDataOut (w : World) (cmd : Addr) (ttt offset len : UInt32) : Option Pdu :=
  if len > 0 then
    match w.pdus cmd with
    | none => none
    | some p =>
      match iscsiAllocatePdu w iscsiPduDataOut iscsiPduNoPdu p.itt
          (iscsiPduDropOnReconnect ||| iscsiPduDeleteWhenSent) with
      | (none, _) => none
      | (some _, _) =>
        some ((w.iscsi.freshPdu iscsiPduDataOut iscsiPduNoPdu p.itt
          (iscsiPduDropOnReconnect ||| iscsiPduDeleteWhenSent)).asDataOut p ttt offset
            (w.segmentOf len) (len == w.segmentOf len))
  else none

section
variable {service : World → Res World} {w w' w₁ : World} {cmd : Addr} {ttt offset len : UInt32}
  {d : Pdu}

/-- A DATA-OUT is made where there is memory. -/
theorem madeDataOut_isSome :
    (madeDataOut w cmd ttt offset len).isSome ↔ len > 0 ∧ w.CanSend cmd := by
  unfold madeDataOut
  split
  · rename_i hlen
    rw [and_iff_right hlen]
    split
    · rename_i hnone
      refine iff_of_false (by simp) fun h => ?_
      have hlive := h.live
      rw [hnone] at hlive
      cases hlive
    · rename_i p hp
      rw [iscsiAllocatePdu_eq]
      constructor
      · intro h
        by_cases hfirst : w.allocs.headD true = true
        · by_cases hsecond : w.allocs.tail.headD true = true
          · exact ⟨by rw [hp]; rfl, hfirst, hsecond⟩
          · rw [if_pos hfirst, if_neg hsecond] at h
            cases h
        · rw [if_neg hfirst] at h
          cases h
      · rintro ⟨-, hfirst, hsecond⟩
        rw [if_pos hfirst, if_pos hsecond]
        rfl
  · rename_i hlen
    exact iff_of_false (by simp) fun h => hlen h.1

/-- The DATA-OUT of a turn is legal if its length is. -/
theorem madeDataOut_legal (h : madeDataOut w cmd ttt offset len = some d) :
    d.LegalSegment ↔ 0 < w.segmentOf len ∧ (w.segmentOf len).toNat < 2 ^ 24 := by
  unfold madeDataOut at h
  split at h
  · split at h
    · cases h
    · split at h
      · cases h
      · obtain rfl := Option.some.inj h
        refine Pdu.legalSegment_iff (Pdu.asDataOut_fields _ _ _ _ _ _ ?_).2.2.2.1 rfl
        rw [freshPdu_length]
        exact iscsiHeaderSize_ge _
  · cases h

/-- The turn queues the DATA-OUT that was made. -/
theorem sendOneDataOut_made {p : Pdu} (hp : w.pdus cmd = some p)
    (h : madeDataOut w cmd ttt offset len = some d) :
    ∃ fresh, sendOneDataOut service w cmd ttt offset (w.segmentOf len) (len == w.segmentOf len) =
      iscsiQueuePdu service (((w.allocated fresh).setPdu w.brk d).setPdu cmd
        { p with datasn := p.datasn + 1 }) w.brk >>= fun w' => .ok (true, w') := by
  unfold madeDataOut at h
  split at h
  · rw [hp] at h
    dsimp only at h
    split at h
    · cases h
    · rename_i a w₁ halloc
      obtain rfl := Option.some.inj h
      obtain ⟨rfl, rfl⟩ := iscsiAllocatePdu_some halloc
      refine ⟨w.iscsi.freshPdu iscsiPduDataOut iscsiPduNoPdu p.itt
        (iscsiPduDropOnReconnect ||| iscsiPduDeleteWhenSent), ?_⟩
      unfold sendOneDataOut
      rw [World.deref_eq_ok.2 hp, Outcome.ok_bind, halloc]
      dsimp only
      rw [World.deref_eq_ok.2 (w.allocated_pdus_self _), Outcome.ok_bind]
  · cases h

/-- A turn that queued a DATA-OUT had the memory for it. -/
theorem sendOneDataOut_canSend {seg : UInt32} {last : Bool}
    (h : sendOneDataOut service w cmd ttt offset seg last = .ok (true, w₁)) : w.CanSend cmd := by
  unfold sendOneDataOut at h
  obtain ⟨p, hp, h⟩ := Outcome.bind_eq_ok.1 h
  rw [World.deref_eq_ok] at hp
  rw [iscsiAllocatePdu_eq] at h
  by_cases hfirst : w.allocs.headD true = true
  · by_cases hsecond : w.allocs.tail.headD true = true
    · exact ⟨by rw [hp]; rfl, hfirst, hsecond⟩
    · rw [if_pos hfirst, if_neg hsecond] at h
      cases h
  · rw [if_neg hfirst] at h
    cases h

/-- Queueing a PDU leaves the segment length of the target alone. -/
theorem iscsiQueuePdu_segment (hserves : Serves service) {a : Addr}
    (h : iscsiQueuePdu service w a = .ok w') :
    w'.iscsi.targetMaxRecvDataSegmentLength = w.iscsi.targetMaxRecvDataSegmentLength := by
  obtain ⟨w₁, henq, hserve⟩ := iscsiAddToOutqueue_cases h
  have hfirst : w₁.iscsi.targetMaxRecvDataSegmentLength =
      w.iscsi.targetMaxRecvDataSegmentLength := by
    unfold enqueue at henq
    obtain ⟨p, -, henq⟩ := Outcome.bind_eq_ok.1 henq
    obtain ⟨w₂, hcmdsn, henq⟩ := Outcome.bind_eq_ok.1 henq
    obtain ⟨p', -, henq⟩ := Outcome.bind_eq_ok.1 henq
    obtain ⟨outqueue, -, henq⟩ := Outcome.bind_eq_ok.1 henq
    obtain rfl := Except.ok.inj henq
    have hiscsi : w₂.iscsi = w.iscsi := by
      unfold immediateCmdsn at hcmdsn
      split at hcmdsn
      · obtain ⟨first, -, hcmdsn⟩ := Outcome.bind_eq_ok.1 hcmdsn
        cases first with
        | none =>
          obtain rfl := Except.ok.inj hcmdsn
          rfl
        | some n =>
          obtain ⟨q, -, hput, -⟩ := iscsiPduSetCmdsn_eq_ok hcmdsn
          rw [hput]
          rfl
      · obtain rfl := Except.ok.inj hcmdsn
        rfl
    change w₂.iscsi.targetMaxRecvDataSegmentLength = _
    rw [hiscsi]
  rcases hserve with rfl | hserve
  · exact hfirst
  · exact (ServiceKeeps.of_run (hserves _ _ hserve)).segment.trans hfirst

/-- A turn leaves the segment length of the target alone. -/
theorem sendOneDataOut_segment (hserves : Serves service) {seg : UInt32} {last : Bool}
    (h : sendOneDataOut service w cmd ttt offset seg last = .ok (true, w₁)) :
    w₁.iscsi.targetMaxRecvDataSegmentLength = w.iscsi.targetMaxRecvDataSegmentLength := by
  unfold sendOneDataOut at h
  obtain ⟨p, hp, h⟩ := Outcome.bind_eq_ok.1 h
  rcases hal : iscsiAllocatePdu w iscsiPduDataOut iscsiPduNoPdu p.itt
    (iscsiPduDropOnReconnect ||| iscsiPduDeleteWhenSent) with ⟨_ | a, w₂⟩
  · rw [hal] at h
    cases h
  · rw [hal] at h
    dsimp only at h
    obtain ⟨rfl, rfl⟩ := iscsiAllocatePdu_some hal
    obtain ⟨fresh, -, h⟩ := Outcome.bind_eq_ok.1 h
    obtain ⟨w₃, hq, h⟩ := Outcome.bind_eq_ok.1 h
    obtain ⟨-, rfl⟩ := Prod.mk.inj (Except.ok.inj h)
    rw [iscsiQueuePdu_segment hserves hq]
    rfl

/-! ## The loop -/

/-- The DATA-OUT of a turn has no more than what is left. -/
theorem segmentOf_le (w : World) (len : UInt32) : w.segmentOf len ≤ len := by
  rw [UInt32.le_iff_toNat_le, World.segmentOf, UInt32.toNat_min]
  exact Nat.min_le_left ..

/-- With a segment length that is not zero, a turn takes something off the length. -/
theorem segmentOf_sub (hM : 0 < w.iscsi.targetMaxRecvDataSegmentLength) (hlen : len > 0) :
    (len - w.segmentOf len).toNat + 1 ≤ len.toNat := by
  rw [gt_iff_lt, UInt32.lt_iff_toNat_lt] at hlen
  rw [UInt32.lt_iff_toNat_lt] at hM
  have hle := segmentOf_le w len
  have hmin : (w.segmentOf len).toNat =
      min len.toNat w.iscsi.targetMaxRecvDataSegmentLength.toNat := UInt32.toNat_min ..
  rw [UInt32.toNat_sub_of_le _ _ hle]
  change 0 < _ at hlen hM
  omega

/-- The turns, and what is left. -/
theorem BurstTurns.length_le (hserves : Serves service) {offset' len' : UInt32} {sent : List Addr}
    (h : BurstTurns service cmd ttt w offset len sent w' offset' len') :
    w'.iscsi.targetMaxRecvDataSegmentLength = w.iscsi.targetMaxRecvDataSegmentLength ∧
      len'.toNat ≤ len.toNat ∧
      (0 < w.iscsi.targetMaxRecvDataSegmentLength → sent.length + len'.toNat ≤ len.toNat) := by
  induction h with
  | refl => exact ⟨rfl, le_rfl, fun _ => by rw [List.length_nil, Nat.zero_add]⟩
  | @step w w₁ w' offset len offset' len' seg sent hlen hseg h _ ih =>
    obtain ⟨hkeep, hle, hbound⟩ := ih
    have hkeep₁ := sendOneDataOut_segment hserves h
    have hsegle : seg ≤ len := hseg ▸ segmentOf_le w len
    have hsub : (len - seg).toNat = len.toNat - seg.toNat := UInt32.toNat_sub_of_le _ _ hsegle
    refine ⟨hkeep.trans hkeep₁, by omega, fun hM => ?_⟩
    have hstep : (len - seg).toNat + 1 ≤ len.toNat := hseg ▸ segmentOf_sub hM hlen
    have := hbound (hkeep₁ ▸ hM)
    rw [List.length_cons]
    omega

/-- Nothing is left to send. -/
theorem iscsiSendDataOut_zero (turns : Nat) :
    iscsiSendDataOut service turns w cmd ttt offset 0 = .ok (0, w) := by
  unfold iscsiSendDataOut
  rfl

/-- With a segment length that is not zero, as many turns as there are bytes suffice. -/
theorem iscsiSendDataOut_enough (hserves : Serves service) : ∀ {n turns : Nat} {w : World}
    {offset len : UInt32}, 0 < w.iscsi.targetMaxRecvDataSegmentLength → len.toNat ≤ n →
      len.toNat ≤ turns → iscsiSendDataOut service turns w cmd ttt offset len =
        iscsiSendDataOut service n w cmd ttt offset len := by
  intro n
  induction n with
  | zero =>
    intro turns w offset len _ hle _
    obtain rfl : len = 0 := UInt32.toNat_inj.1 (Nat.le_zero.1 hle)
    rw [iscsiSendDataOut_zero, iscsiSendDataOut_zero]
  | succ n ih =>
    intro turns w offset len hM hle hturns
    rcases eq_or_ne len 0 with rfl | hne
    · rw [iscsiSendDataOut_zero, iscsiSendDataOut_zero]
    have hlen : len > 0 := UInt32.pos_iff_ne_zero.2 hne
    have hstep := segmentOf_sub hM hlen
    obtain ⟨turns, rfl⟩ : ∃ m, turns = m + 1 := ⟨turns - 1, by omega⟩
    rw [iscsiSendDataOut, iscsiSendDataOut, if_pos hlen, if_pos hlen]
    dsimp only
    unfold World.segmentOf at hstep
    rcases hturn : sendOneDataOut service w cmd ttt offset
      (min len w.iscsi.targetMaxRecvDataSegmentLength)
      (len == min len w.iscsi.targetMaxRecvDataSegmentLength) with e | ⟨sent, w₁⟩
    · rfl
    · rw [Outcome.ok_bind, Outcome.ok_bind]
      cases sent with
      | false => rfl
      | true => exact ih ((sendOneDataOut_segment hserves hturn).symm ▸ hM) (by omega) (by omega)

end

/-! ## Legal segments -/

/-- `iscsi_send_data_out` ends, and every DATA-OUT that it queues has a legal segment. -/
structure SplitsLegally (service : World → Res World) (w : World) (cmd : Addr)
    (ttt offset len : UInt32) : Prop where
  /-- There is a bound on the turns of the loop. -/
  ends : ∃ n, ∀ sent w' offset' len',
    BurstTurns service cmd ttt w offset len sent w' offset' len' → sent.length ≤ n
  /-- As many turns as there are bytes suffice. -/
  enough : ∀ turns, len.toNat ≤ turns → iscsiSendDataOut service turns w cmd ttt offset len =
    iscsiSendDataOut service len.toNat w cmd ttt offset len
  legal : ∀ sent w' offset' len' d, BurstTurns service cmd ttt w offset len sent w' offset' len' →
    madeDataOut w' cmd ttt offset' len' = some d → d.LegalSegment

/-- The immediate data of a command, where there is any, is a legal segment. -/
def ImmediateLegal (c : Context) (task : ScsiTask) : Prop :=
  ∀ itt a lun t cb privateData, 0 < immediateDataLen c task →
    ((c.freshPdu iscsiPduScsiRequest iscsiPduScsiResponse itt 0).commandFor c a lun t task cb
      privateData).LegalSegment

/-- Immediate data is legal if its length is. -/
theorem immediateLegal_iff {c : Context} {task : ScsiTask} :
    ImmediateLegal c task ↔ (immediateDataLen c task).toNat < 2 ^ 24 := by
  have hcmd : ∀ itt a lun t cb privateData,
      ((c.freshPdu iscsiPduScsiRequest iscsiPduScsiResponse itt 0).commandFor c a lun t task cb
        privateData).LegalSegment ↔
      0 < immediateDataLen c task ∧ (immediateDataLen c task).toNat < 2 ^ 24 := by
    intro itt a lun t cb privateData
    refine Pdu.legalSegment_iff (commandFor_dataSize ?_ (freshPdu_dataSize (by decide)))
      (commandFor_payloadLen ..)
    rw [freshPdu_length]
    exact iscsiHeaderSize_ge _
  constructor
  · intro h
    by_cases hpos : 0 < immediateDataLen c task
    · exact ((hcmd 0 0 0 0 none 0).1 (h 0 0 0 0 none 0 hpos)).2
    · rw [UInt32.not_lt] at hpos
      rw [UInt32.le_zero_iff.1 hpos]
      decide
  · intro h itt a lun t cb privateData hpos
    exact (hcmd itt a lun t cb privateData).2 ⟨hpos, h⟩

section
variable {service : World → Res World} {w : World} {cmd : Addr} {ttt offset len : UInt32}

/-- **The segments of a burst are legal if and only if that of its first DATA-OUT is**, where there
is one. -/
theorem splitsLegally_iff (hserves : Serves service) :
    SplitsLegally service w cmd ttt offset len ↔
      (0 < len → w.CanSend cmd → 0 < w.iscsi.targetMaxRecvDataSegmentLength ∧
        (min len w.iscsi.targetMaxRecvDataSegmentLength).toNat < 2 ^ 24) := by
  constructor
  · intro h hlen hcan
    obtain ⟨d, hd⟩ := Option.isSome_iff_exists.1 (madeDataOut_isSome.2 ⟨hlen, hcan⟩)
    obtain ⟨hpos, hlt⟩ := (madeDataOut_legal hd).1 (h.legal [] w offset len d (.refl ..) hd)
    refine ⟨?_, hlt⟩
    rw [UInt32.lt_iff_toNat_lt, World.segmentOf, UInt32.toNat_min] at hpos
    exact UInt32.lt_iff_toNat_lt.2 (lt_min_iff.1 hpos).2
  intro hfirst
  by_cases hstart : 0 < len ∧ w.CanSend cmd
  · obtain ⟨hM, hlt⟩ := hfirst hstart.1 hstart.2
    rw [UInt32.toNat_min] at hlt
    refine ⟨⟨len.toNat, ?_⟩, ?_, ?_⟩
    · intro sent w' offset' len' h
      have := (h.length_le hserves).2.2 hM
      omega
    · intro turns hle
      exact iscsiSendDataOut_enough hserves hM le_rfl hle
    · intro sent w' offset' len' d h hd
      obtain ⟨hkeep, hle, -⟩ := h.length_le hserves
      obtain ⟨hlen', -⟩ := madeDataOut_isSome.1 (Option.isSome_iff_exists.2 ⟨d, hd⟩)
      rw [madeDataOut_legal hd, UInt32.lt_iff_toNat_lt, World.segmentOf, hkeep, UInt32.toNat_min]
      rw [gt_iff_lt, UInt32.lt_iff_toNat_lt] at hlen'
      rw [UInt32.lt_iff_toNat_lt] at hM
      exact ⟨lt_min hlen' hM, by omega⟩
  · -- there is no turn
    have hstay : ∀ {sent w' offset' len'},
        BurstTurns service cmd ttt w offset len sent w' offset' len' →
          sent = [] ∧ w' = w ∧ offset' = offset ∧ len' = len := by
      intro sent w' offset' len' h
      cases h with
      | refl => exact ⟨rfl, rfl, rfl, rfl⟩
      | step hlen _ hturn _ => exact absurd ⟨hlen, sendOneDataOut_canSend hturn⟩ hstart
    refine ⟨⟨0, ?_⟩, ?_, ?_⟩
    · intro sent w' offset' len' h
      rw [(hstay h).1]
      rfl
    · intro turns hle
      rcases eq_or_ne len 0 with rfl | hne
      · rw [iscsiSendDataOut_zero, iscsiSendDataOut_zero]
      have hlen : len > 0 := UInt32.pos_iff_ne_zero.2 hne
      have hpos := UInt32.lt_iff_toNat_lt.1 hlen
      obtain ⟨n, hn⟩ : ∃ n, len.toNat = n + 1 := Nat.exists_eq_succ_of_ne_zero (Nat.ne_of_gt hpos)
      obtain ⟨turns, rfl⟩ : ∃ m, turns = m + 1 := ⟨turns - 1, by omega⟩
      rw [hn, iscsiSendDataOut, iscsiSendDataOut, if_pos hlen, if_pos hlen]
      dsimp only
      rcases hturn : sendOneDataOut service w cmd ttt offset
        (min len w.iscsi.targetMaxRecvDataSegmentLength)
        (len == min len w.iscsi.targetMaxRecvDataSegmentLength) with e | ⟨sent, w₁⟩
      · rfl
      · cases sent with
        | false => rfl
        | true => exact absurd ⟨hlen, sendOneDataOut_canSend hturn⟩ hstart
    · intro sent w' offset' len' d h hd
      obtain ⟨-, rfl, rfl, rfl⟩ := hstay h
      exact absurd (madeDataOut_isSome.1 (Option.isSome_iff_exists.2 ⟨d, hd⟩)) hstart

/-- **Written data is split into legal segments if and only if the target declared a length that is
not zero, and the first DATA-OUT and the immediate data have less than 2²⁴ bytes.** -/
theorem write_split_iff (hserves : Serves service) (task : ScsiTask) :
    SplitsLegally service w cmd ttt offset len ∧ ImmediateLegal w.iscsi task ↔
      (0 < len → w.CanSend cmd → 0 < w.iscsi.targetMaxRecvDataSegmentLength ∧
        (min len w.iscsi.targetMaxRecvDataSegmentLength).toNat < 2 ^ 24) ∧
      (immediateDataLen w.iscsi task).toNat < 2 ^ 24 :=
  and_congr (splitsLegally_iff hserves) immediateLegal_iff

end

/-! ## A target that declares no length -/

/-- A connection on which the target declared this segment length, with a command. -/
def declared (text : String) : World where
  iscsi := loginKey { useImmediateData := true, firstBurstLength := 65536 }
    (ofString "MaxRecvDataSegmentLength=" ++ ofString text)
  pdus a := if a = 0 then some sentWrite else none
  brk := 1

/-- A `service` that does nothing serves. -/
theorem serves_ok : Serves .ok := by
  intro w w' h
  obtain rfl := Except.ok.inj h
  exact .refl

/-- A write of 8192 bytes to a target that declared 4096. -/
theorem write_split_4096 : SplitsLegally .ok (declared "4096") 0 7 0 8192 ∧
    ImmediateLegal (declared "4096").iscsi { xferDir := .write, expxferlen := 8192 } :=
  (write_split_iff serves_ok { xferDir := .write, expxferlen := 8192 }).2
    ⟨fun _ _ => ⟨by decide +kernel, by decide +kernel⟩, by decide +kernel⟩

/-- A target that declares a length without digits. -/
theorem write_split_none : ¬∀ (text : String) (service : World → Res World) (cmd : Addr)
    (ttt offset len : UInt32), Serves service →
      SplitsLegally service (declared text) cmd ttt offset len := by
  intro h
  have hsplit := (splitsLegally_iff serves_ok).1 (h "none" .ok 0 7 0 8192 serves_ok)
  have hcan : (declared "none").CanSend 0 := ⟨rfl, rfl, rfl⟩
  exact absurd (hsplit (by decide) hcan).1 (by decide +kernel)

end Libiscsi
