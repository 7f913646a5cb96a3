import Libiscsi.DataInCorrect
import Libiscsi.WireFormat

/-!
# The data segment that is handed on

`iscsi_read_from_socket` reads the padding of a data segment into the buffer behind the data, and
counts it in `in->data_pos`. What the handlers take for the length of the data is `in->data_pos`
(NOP-In, sense data, text and login replies) or the length in the header (Data-In), and the two
differ by the padding (`handsOn_iff`).
-/

namespace Libiscsi

/-! ## The handlers -/

/-- `iscsi_process_nop_out_reply` (`lib/nop.c`), with the data that the callback receives, if there
is one. -/
def iscsiProcessNopOutReply (w : World) (a : Addr) (inPdu : InPdu) :
    Res (Option (List UInt8) × World) := do
  match w.iscsi.waitpdu with
  | [] => .error .nullDeref
  | head :: _ =>
    let oldest ← w.deref head
    let pdu ← w.deref a
    let w := if oldest.cmdsn = w.iscsi.minCmdsnWaiting ∧ w.ignoreNopOutOnStuckWaitpduQueue then w
      else w.modify fun c => { c with nopsInFlight := 0 }
    let w := w.modify fun c => { c with minCmdsnWaiting := oldest.cmdsn }
    match pdu.callback with
    | none => .ok (none, w)
    | some _ =>
      let data := if inPdu.dataPos ≠ 0 then inPdu.payload else []
      let w ← invokeCallback w a scsiStatusGood
      .ok (some data, w)

/-- The part of `iscsi_read_from_socket` that reads the data segment. `none` stands for the error
exit. -/
def readSegment (w : World) (x : Inbound) : Res (Option (World × InPdu)) :=
  if iscsiGetPduDataSize x.hdr > w.iscsi.initiatorMaxRecvDataSegmentLength.toNat then .ok none
  else readData (x.stream.length + 1) w { hdr := x.hdr } x.stream x.cuts

/-- Who gets the data of a PDU. -/
inductive Receiver where
  /-- The callback of a NOP-Out. -/
  | nopOut (a : Addr)
  /-- `task->datain`, for sense data. -/
  | sense (a : Addr) (t : TaskPtr)
  /-- The loop of `iscsi_process_text_reply` or `iscsi_process_login_reply`, whose `size` is
  `in->data_pos`. -/
  | strings
  /-- `pdu->indata`, in which Data-In are reassembled. -/
  | indata (a : Addr) (t : TaskPtr)
  /-- The vectors of a task, into which Data-In are read. -/
  | vectors (t : TaskPtr) (iov : List ScsiIovec)

namespace Receiver

/-- The PDU is for the receiver, which is there. -/
def Ready (w : World) (x : Inbound) : Receiver → Prop
  | nopOut a => x.head.opcode = iscsiPduNopIn ∧
    (∃ head rest oldest, w.iscsi.waitpdu = head :: rest ∧ w.pdus head = some oldest) ∧
    ∃ p id, w.pdus a = some p ∧ p.callback = some (.user id)
  | sense a t => x.head.opcode = iscsiPduScsiResponse ∧
    x.head.flags &&& iscsiPduDataFinal ≠ 0 ∧ x.head.flags &&& iscsiPduDataAckRequested = 0 ∧
    byte x.hdr 2 = 0 ∧ (byte x.hdr 3).toNat = scsiStatusCheckCondition ∧
    ∃ p, Waits w a p t ∧ x.head.itt = p.itt
  | strings => x.head.opcode = iscsiPduTextResponse ∨ x.head.opcode = iscsiPduLoginResponse
  | indata a t => x.head.opcode = iscsiPduDataIn ∧ (w.tasks t).iovectorIn.iov = none ∧
    ∃ p, Waits w a p t ∧ x.head.itt = p.itt
  | vectors t iov => x.head.opcode = iscsiPduDataIn ∧
    (w.tasks t).iovectorIn.iov = some iov ∧ (w.tasks t).iovectorIn.CursorOk ∧
    (w.tasks t).iovectorIn.offset ≤ (scsiGetUint32 x.hdr 40).toNat ∧
    (scsiGetUint32 x.hdr 40).toNat + iscsiGetPduDataSize x.hdr ≤ iovecLength iov ∧
    (iovecAddrs iov).Nodup ∧ iovecLength iov < 2 ^ 32 ∧
    ∃ a p, Waits w a p t ∧ x.head.itt = p.itt

/-- The receiver gets these bytes from the PDU `q`, which was read in the world `w'`. -/
def Gets (w w' : World) (q : InPdu) (bytes : List UInt8) : Receiver → Prop
  | nopOut a => ∃ u, iscsiProcessNopOutReply w' a q = .ok (some bytes, u)
  | sense _ t => ∃ r u, processScsiPdu w' q = .ok (r, u) ∧ (u.tasks t).datain = bytes
  | strings => q.payload = bytes
  | indata a t => ∃ r u p p', collectData w' a t q = .ok (r, u) ∧ w'.pdus a = some p ∧
    u.pdus a = some p' ∧ p'.indata = p.indata ++ bytes
  | vectors _ iov =>
    (iovecBytes w'.mem iov).take ((scsiGetUint32 q.hdr 40).toNat + iscsiGetPduDataSize q.hdr) =
      (iovecBytes w.mem iov).take (scsiGetUint32 q.hdr 40).toNat ++ bytes

/-- The PDU is a Data-In. -/
def IsDataIn : Receiver → Prop
  | indata .. | vectors .. => True
  | _ => False

end Receiver

/-- The PDU is read, and the receiver gets its data without the padding. -/
def HandsOn (w : World) (x : Inbound) (r : Receiver) : Prop :=
  ∃ w' q, readSegment w x = .ok (some (w', q)) ∧ r.Gets w w' q x.data

/-! ## What each receiver gets -/

section
variable {w : World} {x : Inbound} {q : InPdu}

/-- The callback of a NOP-Out gets the buffer, with the padding. -/
theorem nopOut_gets {a : Addr} (hready : (Receiver.nopOut a).Ready w x) (bytes : List UInt8) :
    (Receiver.nopOut a).Gets w w q bytes ↔ q.payload = bytes := by
  obtain ⟨-, ⟨head, rest, oldest, hwait, holdest⟩, p, id, hp, hcb⟩ := hready
  have hdata : (if q.dataPos ≠ 0 then q.payload else []) = q.payload := by
    by_cases hpos : q.dataPos = 0
    · rw [if_neg (not_not.2 hpos), InPdu.payload, hpos, List.take_zero]
    · rw [if_pos hpos]
  -- the callback is the application's, which only sees what it is handed
  have hcall : ∀ u : World, u.pdus = w.pdus → ∃ u', invokeCallback u a scsiStatusGood = .ok u' := by
    intro u hu
    have hderef : u.deref a = .ok p := World.deref_eq_ok.2 (by rw [hu]; exact hp)
    unfold invokeCallback
    rw [hderef, Outcome.ok_bind, hcb]
    exact ⟨_, rfl⟩
  have hreply : ∃ u, iscsiProcessNopOutReply w a q = .ok (some q.payload, u) := by
    unfold iscsiProcessNopOutReply
    simp only [hwait, World.deref_eq_ok.2 holdest, World.deref_eq_ok.2 hp, Outcome.ok_bind, hcb,
      hdata]
    split
    · obtain ⟨u, hu⟩ := hcall (w.modify fun c => { c with minCmdsnWaiting := oldest.cmdsn }) rfl
      exact ⟨u, by rw [hu, Outcome.ok_bind]⟩
    · obtain ⟨u, hu⟩ := hcall ((w.modify fun c => { c with nopsInFlight := 0 }).modify fun c =>
        { c with minCmdsnWaiting := oldest.cmdsn }) rfl
      exact ⟨u, by rw [hu, Outcome.ok_bind]⟩
  obtain ⟨u, hu⟩ := hreply
  constructor
  · rintro ⟨u', hu'⟩
    rw [hu] at hu'
    exact congrArg (fun y => y.1.getD []) (Except.ok.inj hu')
  · rintro rfl
    exact ⟨u, hu⟩

/-- `task->datain` gets the buffer as sense data, with the padding. -/
theorem sense_gets {a : Addr} {t : TaskPtr} (hready : (Receiver.sense a t).Ready w x)
    (hq : q.hdr = x.hdr) (bytes : List UInt8) :
    (Receiver.sense a t).Gets w w q bytes ↔ q.payload = bytes := by
  obtain ⟨hop, hfinal, hack, hres, hcheck, p, hwaits, hitt⟩ := hready
  have hflags : q.flags = x.head.flags := by
    rw [InPdu.flags, hq]
    rfl
  obtain ⟨r, u, hproc, hdone⟩ := reply_ends (x := q) hwaits
    (by rw [← hitt, InPdu.itt, hq]; rfl) (by rw [← hop, InPdu.opcode, hq]; rfl)
  have hdatain : (u.tasks t).datain = q.payload := by
    rw [hdone.task]
    unfold replyTask
    rw [hflags, hq, if_neg hfinal, if_neg (not_not.2 hack), if_neg (fun h => h.2 hres)]
    dsimp only
    rw [hcheck, if_neg (by decide), if_pos rfl]
  constructor
  · rintro ⟨r', u', hproc', hbytes⟩
    rw [hproc] at hproc'
    obtain ⟨rfl, rfl⟩ := Prod.mk.inj (Except.ok.inj hproc')
    rw [← hbytes, hdatain]
  · rintro rfl
    exact ⟨r, u, hproc, hdatain⟩

/-- `pdu->indata` gets the data without the padding. -/
theorem indata_gets {a : Addr} {t : TaskPtr} (hready : (Receiver.indata a t).Ready w x)
    (hq : q.hdr = x.hdr) (hdata : q.data.getD [] = x.stream) :
    (Receiver.indata a t).Gets w w q x.data := by
  obtain ⟨-, hiov, p, hwaits, -⟩ := hready
  have hmalloc : w.malloc = (true, w) := by rw [World.malloc, hwaits.allocs]
  change ∃ r u p p', collectData w a t q = .ok (r, u) ∧ w.pdus a = some p ∧
    u.pdus a = some p' ∧ p'.indata = p.indata ++ x.data
  unfold collectData
  rw [if_pos (by rw [hiov]; rfl), hdata, hq]
  change ∃ r u p p', iscsiAddIndata w a x.data = .ok (r, u) ∧ _
  unfold iscsiAddIndata
  by_cases hempty : x.data.length = 0
  · rw [if_pos hempty]
    refine ⟨-1, w, p, p, rfl, hwaits.pdu, hwaits.pdu, ?_⟩
    rw [List.length_eq_zero_iff.1 hempty, List.append_nil]
  · rw [if_neg hempty]
    simp only [hmalloc, World.deref_eq_ok.2 hwaits.pdu, Outcome.ok_bind]
    exact ⟨0, _, p, _, rfl, hwaits.pdu, Function.update_self .., rfl⟩

end

/-! ## The padding -/

/-- There is no padding exactly if the length is a multiple of four. -/
theorem paddingSize_eq_zero_iff (hdr : List UInt8) :
    iscsiGetPduPaddingSize hdr = 0 ↔ iscsiGetPduDataSize hdr % 4 = 0 := by
  have hsmall : iscsiGetPduDataSize hdr < 2 ^ 24 := by
    unfold iscsiGetPduDataSize
    rw [UInt32.toNat_and]
    exact Nat.lt_of_le_of_lt Nat.and_le_right (by decide)
  unfold iscsiGetPduPaddingSize
  rw [pad4_eq (by omega)]
  omega

/-- The buffer holds the data alone exactly if there is no padding. -/
theorem stream_eq_data_iff {x : Inbound}
    (hx : x.stream.length = iscsiGetPduDataSize x.hdr + iscsiGetPduPaddingSize x.hdr) :
    x.stream = x.data ↔ iscsiGetPduDataSize x.hdr % 4 = 0 := by
  rw [← paddingSize_eq_zero_iff]
  constructor
  · intro h
    have hlen := congrArg List.length h
    rw [Inbound.data, List.length_take] at hlen
    omega
  · intro h
    rw [Inbound.data, List.take_of_length_le (by omega)]

/-- No task has vectors for the data of a PDU that is not a Data-In. -/
theorem iovectorIn_of_opcode {w : World} {x : Inbound} (h : x.head.opcode ≠ iscsiPduDataIn) :
    ∀ q : InPdu, q.hdr = x.hdr → iscsiGetScsiTaskIovectorIn w q = .ok none := by
  intro q hq
  unfold iscsiGetScsiTaskIovectorIn
  rw [if_pos]
  rw [InPdu.opcode, hq]
  exact h

/-- A PDU that no task has vectors for is in the buffer. -/
theorem readSegment_buffer {w : World} {x : Inbound} (hallocs : w.allocs = [])
    (hx : x.stream.length = iscsiGetPduDataSize x.hdr + iscsiGetPduPaddingSize x.hdr)
    (hmax : iscsiGetPduDataSize x.hdr ≤ w.iscsi.initiatorMaxRecvDataSegmentLength.toNat)
    (hnone : ∀ q : InPdu, q.hdr = x.hdr → iscsiGetScsiTaskIovectorIn w q = .ok none) :
    ∃ q, readSegment w x = .ok (some (w, q)) ∧ q.hdr = x.hdr ∧ q.data.getD [] = x.stream ∧
      q.payload = x.stream := by
  obtain ⟨q, hread, hhdr, hpos, hdata⟩ := readData_buffer hallocs hnone (x.stream.length + 1)
    { hdr := x.hdr } x.stream x.cuts rfl (by simpa using hx) (Nat.lt_succ_self _)
  have hdata : q.data.getD [] = x.stream := by simpa using hdata
  refine ⟨q, ?_, hhdr, hdata, ?_⟩
  · unfold readSegment
    rw [if_neg (by omega), hread]
  · rw [InPdu.payload, hdata, hpos, ← hx, List.take_length]

/-- A receiver that takes the whole buffer gets the data alone exactly if there is no padding. -/
theorem handsOn_of_payload {w : World} {x : Inbound} {r : Receiver} (hallocs : w.allocs = [])
    (hx : x.stream.length = iscsiGetPduDataSize x.hdr + iscsiGetPduPaddingSize x.hdr)
    (hmax : iscsiGetPduDataSize x.hdr ≤ w.iscsi.initiatorMaxRecvDataSegmentLength.toNat)
    (hop : x.head.opcode ≠ iscsiPduDataIn)
    (hgets : ∀ q, q.hdr = x.hdr → ∀ bytes, r.Gets w w q bytes ↔ q.payload = bytes) :
    HandsOn w x r ↔ iscsiGetPduDataSize x.hdr % 4 = 0 := by
  obtain ⟨q, hread, hhdr, -, hpay⟩ := readSegment_buffer hallocs hx hmax (iovectorIn_of_opcode hop)
  rw [← stream_eq_data_iff hx, ← hpay, ← hgets q hhdr]
  constructor
  · rintro ⟨w', q', hread', hget⟩
    rw [hread] at hread'
    obtain ⟨rfl, rfl⟩ := Prod.mk.inj (Option.some.inj (Except.ok.inj hread'))
    exact hget
  · intro hget
    exact ⟨w, q, hread, hget⟩

/-- The world with its own memory and vectors. -/
theorem World.withVectors_self (w : World) (t : TaskPtr) :
    w.withVectors t w.mem (w.tasks t).iovectorIn = w := by
  unfold World.withVectors
  rw [Function.update_eq_self]

/-- The vectors get the data without the padding. -/
theorem handsOn_vectors {w : World} {x : Inbound} {t : TaskPtr} {iov : List ScsiIovec}
    (hx : x.stream.length = iscsiGetPduDataSize x.hdr + iscsiGetPduPaddingSize x.hdr)
    (hmax : iscsiGetPduDataSize x.hdr ≤ w.iscsi.initiatorMaxRecvDataSegmentLength.toNat)
    (hready : (Receiver.vectors t iov).Ready w x) : HandsOn w x (.vectors t iov) := by
  obtain ⟨hop, hiov, hcursor, hoff, hfit, hapart, hsize, a, p, hwaits, hitt⟩ := hready
  obtain ⟨mem', v', q, hread, hhdr, -, -, -, hbytes⟩ :=
    readData_vectors hapart hsize
      (fun q mem v hq hv => iovectorIn_vectors hwaits
        (by rw [← hop, InPdu.opcode, hq]; rfl) (by rw [← hitt, InPdu.itt, hq]; rfl) hv)
      rfl hfit (x.stream.length + 1) w.mem (w.tasks t).iovectorIn { hdr := x.hdr } x.stream
      ((iovecBytes w.mem iov).take (scsiGetUint32 x.hdr 40).toNat) x.cuts rfl (by simpa using hx)
      (Nat.lt_succ_self _) hcursor hiov (by simpa using hoff) (by simp)
  rw [World.withVectors_self] at hread
  refine ⟨w.withVectors t mem' v', q, ?_, ?_⟩
  · unfold readSegment
    rw [if_neg (by omega), hread]
  · change (iovecBytes mem' iov).take _ = _
    rw [hhdr, hbytes]
    rfl

/-- **The data are handed on without padding if the receiver is one of a Data-In, or if there is no
padding.** -/
theorem handsOn_iff {w : World} {x : Inbound} (r : Receiver) (hallocs : w.allocs = [])
    (hx : x.stream.length = iscsiGetPduDataSize x.hdr + iscsiGetPduPaddingSize x.hdr)
    (hmax : iscsiGetPduDataSize x.hdr ≤ w.iscsi.initiatorMaxRecvDataSegmentLength.toNat)
    (hready : r.Ready w x) : HandsOn w x r ↔ r.IsDataIn ∨ iscsiGetPduDataSize x.hdr % 4 = 0 := by
  cases r with
  | nopOut a =>
    have hop : x.head.opcode ≠ iscsiPduDataIn := by
      rw [hready.1]
      decide
    rw [handsOn_of_payload hallocs hx hmax hop fun q _ => nopOut_gets hready]
    exact (or_iff_right id).symm
  | sense a t =>
    have hop : x.head.opcode ≠ iscsiPduDataIn := by
      rw [hready.1]
      decide
    rw [handsOn_of_payload hallocs hx hmax hop fun q hq => sense_gets hready hq]
    exact (or_iff_right id).symm
  | strings =>
    have hop : x.head.opcode ≠ iscsiPduDataIn := by
      rcases hready with h | h <;> rw [h] <;> decide
    rw [handsOn_of_payload hallocs hx hmax hop fun q _ bytes => Iff.rfl]
    exact (or_iff_right id).symm
  | indata a t =>
    refine iff_of_true ?_ (.inl trivial)
    obtain ⟨hop, hiov, p, hwaits, hitt⟩ := hready
    have hnone : ∀ q : InPdu, q.hdr = x.hdr → iscsiGetScsiTaskIovectorIn w q = .ok none := by
      intro q hq
      have hop' : q.opcode = iscsiPduDataIn := by
        rw [← hop, InPdu.opcode, hq]
        rfl
      have hitt' : q.itt = p.itt := by
        rw [← hitt, InPdu.itt, hq]
        rfl
      unfold iscsiGetScsiTaskIovectorIn
      rw [if_neg (not_not.2 hop'), hitt', hwaits.found, Outcome.ok_bind]
      simp only [World.deref_eq_ok.2 hwaits.pdu, Outcome.ok_bind, hwaits.task, hiov]
      rfl
    obtain ⟨q, hread, hhdr, hdata, -⟩ := readSegment_buffer hallocs hx hmax hnone
    exact ⟨w, q, hread, indata_gets ⟨hop, hiov, p, hwaits, hitt⟩ hhdr hdata⟩
  | vectors t iov => exact iff_of_true (handsOn_vectors hx hmax hready) (.inl trivial)

/-! ## A ping -/

/-- The header of a NOP-In with data. -/
def nopInHdr (len : UInt32) : List UInt8 :=
  scsiSetUint32 ((List.replicate 48 0).set 0 iscsiPduNopIn) 4 len

/-- A session in which a NOP-Out waits for its echo. -/
def pingWorld : World where
  iscsi := { waitpdu := [0], initiatorMaxRecvDataSegmentLength := 4096 }
  pdus a := if a = 0 then some { callback := some (.user 1), responseOpcode := iscsiPduNopIn }
    else none
  brk := 1

/-- The echo of a ping of four bytes. -/
def echoFour : Inbound := { hdr := nopInHdr 4, stream := [1, 2, 3, 4], cuts := [] }

/-- It is handed on as it is. -/
theorem handsOn_echoFour : HandsOn pingWorld echoFour (.nopOut 0) :=
  (handsOn_iff (.nopOut 0) rfl (by decide) (by decide)
    ⟨by decide, ⟨0, [], _, rfl, rfl⟩, _, 1, rfl, rfl⟩).2 (.inr (by decide))

/-- The echo of a ping of five bytes. -/
def echoFive : Inbound := { hdr := nopInHdr 5, stream := [1, 2, 3, 4, 5, 0, 0, 0], cuts := [] }

/-- The callback gets eight bytes for it. -/
theorem echoFive_padded :
    (Receiver.nopOut 0).Ready pingWorld echoFive ∧ echoFive.data = [1, 2, 3, 4, 5] ∧
      (∃ q u, readSegment pingWorld echoFive = .ok (some (pingWorld, q)) ∧
        iscsiProcessNopOutReply pingWorld 0 q = .ok (some [1, 2, 3, 4, 5, 0, 0, 0], u)) ∧
      ¬HandsOn pingWorld echoFive (.nopOut 0) := by
  have hready : (Receiver.nopOut 0).Ready pingWorld echoFive :=
    ⟨by decide, ⟨0, [], _, rfl, rfl⟩, _, 1, rfl, rfl⟩
  obtain ⟨q, hread, -, -, hpay⟩ := readSegment_buffer (w := pingWorld) (x := echoFive) rfl
    (by decide) (by decide) (iovectorIn_of_opcode (by decide))
  obtain ⟨u, hu⟩ := (nopOut_gets hready _).2 hpay
  refine ⟨hready, by decide, ⟨q, u, hread, hu⟩, ?_⟩
  rintro ⟨w', q', hread', hget⟩
  rw [hread] at hread'
  obtain ⟨rfl, rfl⟩ := Prod.mk.inj (Option.some.inj (Except.ok.inj hread'))
  have heq := hpay.symm.trans ((nopOut_gets hready _).1 hget)
  revert heq
  decide

end Libiscsi
