import Libiscsi.WireFormat

/-!
# A PDU is written as it is on the wire, however it is cut

`outdata_written` and `payload_written` are the numbers of bytes sent of the buffer and of what
follows it (`Progress`). Each stage of `iscsi_write_to_socket` keeps this, whatever part of its
bytes the socket takes, together with the data digest of what has been sent; so a turn that ends
with the PDU done has sent the whole of `wire`, and any other turn a start of it
(`Job.writeCurrent`). Over any number of calls, with other PDUs of the same task sent in between,
this gives the bytes that have been written (`written_exactly`).
-/

namespace Libiscsi

/-! ## Starts of a list -/

section
variable {α : Type*} {l l' x : List α} {n : Nat}

/-- A start of what is left after `n` elements extends the first `n`. -/
theorem take_append_of_prefix_drop (h : x <+: l.drop n) :
    l.take n ++ x = l.take (n + x.length) := by
  rw [List.take_add, ← List.prefix_iff_eq_take.1 h]

theorem length_le_of_prefix_drop (h : x <+: l.drop n) (hn : n ≤ l.length) :
    n + x.length ≤ l.length := by
  have := h.length_le
  rw [List.length_drop] at this
  omega

/-- A start of what is left of a list is one of what is left of a longer list. -/
theorem prefix_drop_append (h : x <+: l.drop n) : x <+: (l ++ l').drop n := by
  rw [List.drop_append]
  exact h.trans (List.prefix_append _ _)

end

/-! ## What is to be sent -/

/-- A PDU with the data it carries: those in its buffer, and its payload. -/
structure Job where
  addr : Addr
  pdu : Pdu
  header : List UInt8
  immediate : List UInt8
  payload : List UInt8
  headerDigest : DigestMode
  dataDigest : DigestMode

namespace Job

/-- The data of the PDU. -/
def data (j : Job) : List UInt8 := j.immediate ++ j.payload

/-- What the buffer holds once it is padded. -/
def buffer (j : Job) : List UInt8 := wireHeader j.headerDigest j.header ++ padded j.immediate

/-- What is sent after the buffer. -/
def body (j : Job) : List UInt8 := padded j.payload ++ wireDigest j.dataDigest j.data

/-- The PDU is the one with this header and these data. -/
structure Ok (j : Job) : Prop where
  outdata : j.pdu.outdata = wireHeader j.headerDigest j.header ++ j.immediate
  header : j.header.length = iscsiRawHeaderSize
  payloadLen : j.pdu.payloadLen = j.payload.length
  one : j.immediate = [] ∨ j.payload = []
  size : scsiGetUint32 j.header 4 = UInt32.ofNat j.data.length
  small : j.data.length < 2 ^ 24

/-- The payload stands in the vectors of the task. -/
def Source (j : Job) (w : World) : Prop :=
  j.pdu.payloadLen ≠ 0 → ∃ t iov, j.pdu.scsiCbdata.task = some t ∧ w.Vectors t iov ∧
    j.payload = ((iovecBytes w.mem iov).drop j.pdu.payloadOffset).take j.pdu.payloadLen ∧
    j.pdu.payloadOffset + j.pdu.payloadLen < 2 ^ 32

theorem Source.keep {j : Job} {w w' : World} (h : j.Source w) (hk : KeepsVectors w w')
    (hm : w'.mem = w.mem) : j.Source w' := fun hlen => by
  obtain ⟨t, iov, ht, hv, hp, hrange⟩ := h hlen
  exact ⟨t, iov, ht, hk t iov hv, by rw [hm, hp], hrange⟩

namespace Ok

variable {j : Job}

theorem immediate_le (_ : j.Ok) : j.immediate.length ≤ j.data.length := by
  simp [data]

theorem payload_le (_ : j.Ok) : j.payload.length ≤ j.data.length := by
  simp [data]

theorem headLength (hj : j.Ok) :
    (wireHeader j.headerDigest j.header).length = iscsiHeaderSize j.headerDigest :=
  length_wireHeader _ hj.header

/-- The buffer, once it is padded. -/
theorem aligned (hj : j.Ok) : j.pdu.aligned = j.buffer := by
  have hhead := hj.headLength
  have := hj.immediate_le
  have := hj.small
  have hsize := iscsiHeaderSize_cases j.headerDigest
  exact aligned_eq hj.outdata (by omega) (by omega)

theorem buffer_drop (hj : j.Ok) :
    j.buffer.drop (iscsiHeaderSize j.headerDigest) = padded j.immediate := by
  rw [buffer, ← hj.headLength, List.drop_left]

/-- The buffer starts with the header. -/
theorem buffer_field (hj : j.Ok) {i : Nat} (hi : i + 4 ≤ iscsiRawHeaderSize) :
    scsiGetUint32 j.buffer i = scsiGetUint32 j.header i := by
  have htake : j.buffer.take iscsiRawHeaderSize = j.header := by
    rw [buffer, wireHeader, List.append_assoc, ← hj.header, List.take_left]
  rw [← htake, scsiGetUint32_take hi]

/-- The length in the buffer is that of the data. -/
theorem dataSize (hj : j.Ok) : iscsiGetPduDataSize j.buffer = j.data.length := by
  have hsmall := hj.small
  have hnat : (UInt32.ofNat j.data.length).toNat = j.data.length := by
    rw [UInt32.toNat_ofNat']
    exact Nat.mod_eq_of_lt (by omega)
  rw [iscsiGetPduDataSize_eq ((hj.buffer_field (by decide)).trans hj.size) (by omega), hnat]

/-- There are no additional header segments. -/
theorem ahslen (hj : j.Ok) : (byte j.buffer 4).toNat = 0 := by
  have hsmall := hj.small
  have hnat : (scsiGetUint32 j.buffer 4).toNat = j.data.length := by
    rw [hj.buffer_field (by decide), hj.size, UInt32.toNat_ofNat']
    exact Nat.mod_eq_of_lt (by omega)
  rw [toNat_scsiGetUint32] at hnat
  omega

theorem buffer_small (hj : j.Ok) : j.buffer.length < 2 ^ 25 := by
  have := hj.small
  have := hj.immediate_le
  have := hj.headLength
  have hsize := iscsiHeaderSize_cases j.headerDigest
  rw [buffer, List.length_append, length_padded (by omega), pad4_eq (by omega)]
  omega

theorem padded_length (hj : j.Ok) : (padded j.payload).length = pad4 j.pdu.payloadLen := by
  have := hj.small
  have := hj.payload_le
  rw [length_padded (by omega), hj.payloadLen]

theorem payload_le_padded (hj : j.Ok) : j.pdu.payloadLen ≤ pad4 j.pdu.payloadLen := by
  have := hj.small
  have := hj.payload_le
  have := hj.payloadLen
  rw [pad4_eq (by omega)]
  omega

/-- The regions of the wire are the buffer and what is sent after it. -/
theorem wire_eq (hj : j.Ok) :
    wire j.headerDigest j.dataDigest j.header j.data = j.buffer ++ j.body := by
  rw [wire, buffer, body]
  rcases hj.one with h | h <;> simp [data, h]

/-- The data with their padding. -/
theorem padded_data (hj : j.Ok) : padded j.data = padded j.immediate ++ padded j.payload := by
  rcases hj.one with h | h <;> simp [data, h]

end Ok

end Job

/-! ## How far the PDU has got -/

/-- The bytes counted have been sent, and the data digest is that of the bytes it covers. -/
structure Progress (j : Job) (w : World) (q : Pdu) : Prop where
  pdu : w.pdus j.addr = some q
  headerDigest : w.iscsi.headerDigest = j.headerDigest
  dataDigest : w.iscsi.dataDigest = j.dataDigest
  same : q = { j.pdu with
    outdata := q.outdata
    outdataWritten := q.outdataWritten
    payloadWritten := q.payloadWritten
    calculatedDataDigest := q.calculatedDataDigest
    outdataDigestComputed := q.outdataDigestComputed }
  aligned : q.aligned = j.buffer
  le : q.outdataWritten ≤ j.buffer.length
  first : q.outdataWritten < j.buffer.length → q.payloadWritten = 0
  bodyLe : q.payloadWritten ≤ j.body.length
  computed : q.outdataDigestComputed = true → j.payload = []
  digest : j.dataDigest ≠ .none → q.calculatedDataDigest = crc32cChain 0xffffffff
    (if q.outdataDigestComputed then padded j.immediate
      else (padded j.payload).take q.payloadWritten)
  sent : sentOf j.addr w.trace =
    j.buffer.take q.outdataWritten ++ j.body.take q.payloadWritten

/-- The buffer has been sent, and its data are in the data digest if they belong there. -/
structure Ready (j : Job) (w : World) (q : Pdu) : Prop extends Progress j w q where
  outdata : q.outdata = j.buffer
  written : q.outdataWritten = j.buffer.length
  executed : executeDataDigest w.iscsi q = true → q.outdataDigestComputed = true

section
variable {j : Job} {w w' : World} {q : Pdu}

theorem Progress.payloadLen (h : Progress j w q) : q.payloadLen = j.pdu.payloadLen := by
  rw [h.same]

theorem Progress.payloadOffset (h : Progress j w q) : q.payloadOffset = j.pdu.payloadOffset := by
  rw [h.same]

theorem Progress.task (h : Progress j w q) : q.scsiCbdata = j.pdu.scsiCbdata := by
  rw [h.same]

/-- Whether the data in the buffer have a digest. -/
theorem Ready.execute (hj : j.Ok) (h : Ready j w q) : executeDataDigest w.iscsi q = true ↔
    j.dataDigest ≠ .none ∧ j.data ≠ [] ∧ j.payload = [] := by
  have hlen : q.payloadLen = j.payload.length := h.payloadLen.trans hj.payloadLen
  simp [executeDataDigest, h.outdata, hj.dataSize, h.dataDigest, hlen, and_assoc]

/-- More of what follows the buffer has been sent. -/
theorem Ready.more (h : Ready j w q) {x : List UInt8} {d : UInt32}
    (hpdu : w'.pdus j.addr = some { q with
      payloadWritten := q.payloadWritten + x.length, calculatedDataDigest := d })
    (hctx : w'.iscsi = w.iscsi) (hsent : sentOf j.addr w'.trace = sentOf j.addr w.trace ++ x)
    (hx : x <+: j.body.drop q.payloadWritten)
    (hdigest : j.dataDigest ≠ .none → d = crc32cChain 0xffffffff
      (if q.outdataDigestComputed then padded j.immediate
        else (padded j.payload).take (q.payloadWritten + x.length))) :
    Ready j w' { q with
      payloadWritten := q.payloadWritten + x.length, calculatedDataDigest := d } where
  pdu := hpdu
  headerDigest := by rw [hctx]; exact h.headerDigest
  dataDigest := by rw [hctx]; exact h.dataDigest
  same := by
    conv_lhs => rw [h.same]
  aligned := h.aligned
  le := h.le
  first hlt := absurd h.written (Nat.ne_of_lt hlt)
  bodyLe := length_le_of_prefix_drop hx h.bodyLe
  computed := h.computed
  digest := hdigest
  sent := by
    rw [hsent, h.sent, List.append_assoc, take_append_of_prefix_drop hx]
  outdata := h.outdata
  written := h.written
  executed he := h.executed (by rw [hctx] at he; exact he)

/-! ## The stages -/

/-- Header and immediate data. -/
theorem Progress.header (hj : j.Ok) (h : Progress j w q) {r : Option Int}
    (hw : writeHeader w j.addr = .ok (r, w')) : ∃ q', Progress j w' q' ∧
      (r = none → q'.outdata = j.buffer ∧ q'.outdataWritten = j.buffer.length) := by
  obtain ⟨p, chunks, hp, hw', hpre, hdone⟩ := writeHeader_cases hw
  obtain rfl : p = q := Option.some.inj (hp.symm.trans h.pdu)
  rw [h.aligned] at hpre hw'
  have hsmall : p.outdata.length < 2 ^ 25 := by
    refine lt_of_le_of_lt ?_ hj.buffer_small
    rw [← h.aligned, Pdu.aligned, List.length_append]
    exact Nat.le_add_right _ _
  have hlen : j.buffer.length = pad4 p.outdata.length := by
    rw [← h.aligned, length_aligned (by omega)]
  have halign : ({ p with outdata := j.buffer } : Pdu).aligned = j.buffer := by
    rw [← h.aligned, aligned_aligned (by omega)]
  have hle := length_le_of_prefix_drop hpre h.le
  -- what follows the buffer is not sent while bytes of the buffer are left
  have hbytes : j.buffer.take p.outdataWritten ++ j.body.take p.payloadWritten ++ chunks.flatten =
      j.buffer.take (p.outdataWritten + chunks.flatten.length) ++
        j.body.take p.payloadWritten := by
    rcases Nat.lt_or_ge p.outdataWritten j.buffer.length with hlt | hge
    · rw [h.first hlt, List.take_zero, List.append_nil, List.append_nil,
        take_append_of_prefix_drop hpre]
    · rw [List.drop_eq_nil_of_le hge, List.prefix_nil] at hpre
      rw [hpre, List.append_nil, List.length_nil, Nat.add_zero]
  refine ⟨{ p with
    outdata := j.buffer, outdataWritten := p.outdataWritten + chunks.flatten.length }, ?_,
    fun hr => ⟨rfl, (hdone hr).trans hlen.symm⟩⟩
  exact {
    pdu := by rw [hw']; exact Function.update_self ..
    headerDigest := by rw [hw']; exact h.headerDigest
    dataDigest := by rw [hw']; exact h.dataDigest
    same := by conv_lhs => rw [h.same]
    aligned := halign
    le := hle
    first := fun hlt => h.first (by simp only at hlt; omega)
    bodyLe := h.bodyLe
    computed := h.computed
    digest := h.digest
    sent := by rw [hw', World.emitted_sent, h.sent, hbytes] }

/-- The data digest of the buffer. -/
theorem Progress.digestOutdata (hj : j.Ok) (h : Progress j w q) (hout : q.outdata = j.buffer)
    (hwritten : q.outdataWritten = j.buffer.length)
    (hw : digestOutdata w j.addr = .ok w') : ∃ q', Ready j w' q' := by
  obtain ⟨p, hp, ⟨hexec, hcomp, rfl⟩ | ⟨hexec, rfl⟩⟩ := digestOutdata_cases hw
  · obtain rfl : p = q := Option.some.inj (hp.symm.trans h.pdu)
    have hlen : p.payloadLen = j.payload.length := h.payloadLen.trans hj.payloadLen
    have hnil : j.payload = [] := by
      simp only [executeDataDigest, hlen, Bool.and_eq_true, beq_iff_eq] at hexec
      exact List.length_eq_zero_iff.1 hexec.2
    refine ⟨_, ⟨⟨Function.update_self .., h.headerDigest, h.dataDigest, ?_, ?_, h.le, h.first,
      h.bodyLe, fun _ => hnil, fun hd => ?_, h.sent⟩, hout, hwritten, fun _ => rfl⟩⟩
    · conv_lhs => rw [h.same]
    · exact h.aligned
    · have hdig := h.digest hd
      rw [hcomp, hnil] at hdig
      simp only [hout, hj.ahslen, h.headerDigest, Nat.zero_mul, Nat.add_zero, hj.buffer_drop,
        if_true]
      rw [hdig]
      simp
  · obtain rfl : p = q := Option.some.inj (hp.symm.trans h.pdu)
    exact ⟨p, h, hout, hwritten, hexec⟩

/-- One turn of the loop over the payload. -/
theorem Ready.payloadTurn (hj : j.Ok) (h : Ready j w q) (hs : j.Source w) {r : Option Int}
    (hlt : q.payloadWritten < q.payloadLen)
    (hw : payloadTurn w j.addr q = .ok (r, w')) : ∃ q', Ready j w' q' := by
  have hlen : q.payloadLen = j.payload.length := h.payloadLen.trans hj.payloadLen
  have hctx : w'.iscsi = w.iscsi := (payloadTurn_sending h.pdu hw).iscsi
  obtain ⟨t, iov, ht, hv, hpay, hrange⟩ := hs (by rw [← h.payloadLen]; omega)
  obtain ⟨_, _, ⟨_, htrace, hpdus⟩ | ⟨n, d, _, hn, htrace, hpdus, hd⟩⟩ :=
    payloadTurn_sends (by rw [h.task]; exact ht) hv
      (by rw [h.payloadOffset, h.payloadLen]; exact hrange) hlt.le hw
  · exact ⟨q, { h with
      pdu := by rw [hpdus]; exact h.pdu
      headerDigest := by rw [hctx]; exact h.headerDigest
      dataDigest := by rw [hctx]; exact h.dataDigest
      sent := by rw [htrace]; exact h.sent
      executed := fun he => h.executed (by rw [hctx] at he; exact he) }⟩
  -- the bytes sent stand in the payload where it has got to
  have hbytes : ((iovecBytes w.mem iov).drop (q.payloadOffset + q.payloadWritten)).take n =
      (j.payload.drop q.payloadWritten).take n := by
    rw [hpay, h.payloadOffset, List.drop_take, List.drop_drop, List.take_take, ← h.payloadLen,
      Nat.min_eq_left hn]
  have hx : (j.payload.drop q.payloadWritten).take n <+: j.payload.drop q.payloadWritten :=
    List.take_prefix _ _
  have hxlen : ((j.payload.drop q.payloadWritten).take n).length = n := by
    rw [List.length_take, List.length_drop]
    omega
  have hpad : (j.payload.drop q.payloadWritten).take n <+:
      (padded j.payload).drop q.payloadWritten := prefix_drop_append hx
  have hnot : q.outdataDigestComputed = false := by
    by_contra hc
    have := h.computed (by simpa using hc)
    rw [this] at hlen
    simp only [List.length_nil] at hlen
    omega
  rw [hbytes] at htrace hd
  refine ⟨_, h.more (x := (j.payload.drop q.payloadWritten).take n) (d := d) ?_ hctx ?_
    (prefix_drop_append hpad) fun hne => ?_⟩
  · rw [hpdus, Function.update_self, hxlen]
  · rw [htrace, sentOf_append]
    simp [sentOf, Event.sentOf]
  · have hdig := h.digest hne
    rw [hnot] at hdig
    rw [hd, h.dataDigest, if_neg hne, hdig, hnot, ← crc32cChain_append]
    simp only [Bool.false_eq_true, if_false]
    rw [take_append_of_prefix_drop hpad]

/-- The loop over the payload. -/
theorem Ready.writePayload (hj : j.Ok) : ∀ {fuel : Nat} {w : World} {q : Pdu} {r : Option Int},
    Ready j w q → j.Source w → writePayload fuel w j.addr = .ok (r, w') →
    ∃ q', Ready j w' q' ∧ (r = none → j.pdu.payloadLen ≤ q'.payloadWritten)
  | 0, _, _, _, _, _, h => by cases h
  | fuel + 1, w, q, r, h, hs, hw => by
    unfold Libiscsi.writePayload at hw
    rw [World.deref_eq_ok.2 h.pdu, Outcome.ok_bind] at hw
    split at hw
    · rename_i hlt
      obtain ⟨s, rfl, hturn⟩ | ⟨w₁, hturn, hw⟩ := andThen_eq_ok hw
      · obtain ⟨q', h'⟩ := h.payloadTurn hj hs hlt hturn
        exact ⟨q', h', fun hnone => absurd hnone (Option.some_ne_none s)⟩
      · obtain ⟨q', h'⟩ := h.payloadTurn hj hs hlt hturn
        have hs' := hs.keep (KeepsVectors.payloadTurn hturn)
          (payloadTurn_sending h.pdu hturn).mem
        exact Ready.writePayload hj h' hs' hw
    · rename_i hge
      obtain ⟨rfl, rfl⟩ := Prod.mk.inj (Except.ok.inj hw)
      exact ⟨q, h, fun _ => by rw [← h.payloadLen]; omega⟩

/-- The padding. -/
theorem Ready.writePadding (hj : j.Ok) (h : Ready j w q) {r : Option Int}
    (hdone : j.pdu.payloadLen ≤ q.payloadWritten)
    (hw : writePadding w j.addr = .ok (r, w')) :
    ∃ q', Ready j w' q' ∧ (r = none → pad4 j.pdu.payloadLen ≤ q'.payloadWritten) := by
  obtain ⟨p, chunks, hp, hw', hpre, hend⟩ := writePadding_cases hw
  obtain rfl : p = q := Option.some.inj (hp.symm.trans h.pdu)
  rw [h.payloadLen] at hpre hend
  have hsmall := hj.small
  have hle := hj.payload_le
  have hlen := hj.payloadLen
  -- zeros are what is left of the padded payload
  have hzeros : (padded j.payload).drop p.payloadWritten =
      List.replicate (pad4 j.pdu.payloadLen - p.payloadWritten) 0 := by
    rw [padded_eq (by omega), List.drop_append, List.drop_eq_nil_of_le (by omega), List.nil_append,
      List.drop_replicate, hlen]
    congr 1
    omega
  rw [← hzeros] at hpre
  refine ⟨_, h.more (x := chunks.flatten) (d := p.digestWith w.iscsi chunks.flatten)
    (by rw [hw']; exact Function.update_self ..) (by rw [hw']; rfl)
    (by rw [hw', World.emitted_sent]) (prefix_drop_append hpre) fun hne => ?_, hend⟩
  have hdig := h.digest hne
  rw [Pdu.digestWith, h.dataDigest, if_neg hne, hdig]
  cases hc : p.outdataDigestComputed with
  | true =>
    rw [h.computed hc, padded_nil, List.drop_nil, List.prefix_nil] at hpre
    simp [hpre]
  | false =>
    simp only [Bool.false_eq_true, if_false]
    rw [← crc32cChain_append, take_append_of_prefix_drop hpre]

/-- A digest is sent after the data if and only if the wire has one there. -/
theorem Ready.endsWithDigest (hj : j.Ok) (h : Ready j w q)
    (hpad : pad4 j.pdu.payloadLen ≤ q.payloadWritten) :
    q.endsWithDigest w.iscsi ↔ j.dataDigest ≠ .none ∧ j.data ≠ [] := by
  have hlen := hj.payloadLen
  have hle := hj.payload_le_padded
  rw [Pdu.endsWithDigest, h.execute hj, h.dataDigest]
  constructor
  · rintro (⟨hne, hdata, _⟩ | ⟨hne, hw⟩)
    · exact ⟨hne, hdata⟩
    · refine ⟨hne, fun hdata => hw ?_⟩
      have hpay : j.payload = [] := (List.append_eq_nil_iff.1 hdata).2
      have hbody : j.body = [] := by simp [Job.body, wireDigest, hdata, hpay]
      have := h.bodyLe
      rw [hbody] at this
      exact Nat.le_zero.1 this
  · rintro ⟨hne, hdata⟩
    rcases Nat.eq_zero_or_pos j.pdu.payloadLen with hzero | hpos
    · exact .inl ⟨hne, hdata, List.length_eq_zero_iff.1 (hlen ▸ hzero)⟩
    · exact .inr ⟨hne, by omega⟩

/-- The digest at the end is that of the data with their padding. -/
theorem Ready.digestValue (hj : j.Ok) (h : Ready j w q) (hne : j.dataDigest ≠ .none)
    (hdata : j.data ≠ []) (hpad : pad4 j.pdu.payloadLen ≤ q.payloadWritten) :
    digestBytes (crc32cChainDone q.calculatedDataDigest) = wireDigest j.dataDigest j.data := by
  rw [wireDigest, if_neg (by simp [hne, hdata]), crc32c, hj.padded_data, h.digest hne]
  cases hc : q.outdataDigestComputed with
  | true => simp [h.computed hc]
  | false =>
    have himm : j.immediate = [] := by
      rcases hj.one with himm | hpay
      · exact himm
      · have := h.executed ((h.execute hj).2 ⟨hne, hdata, hpay⟩)
        rw [hc] at this
        cases this
    rw [himm, padded_nil, List.nil_append, if_neg (by simp),
      List.take_of_length_le (by rw [hj.padded_length]; exact hpad)]

/-- The data digest. -/
theorem Ready.writeDigest (hj : j.Ok) (h : Ready j w q) {r : Option Int}
    (hpad : pad4 j.pdu.payloadLen ≤ q.payloadWritten) (hw : writeDigest w j.addr = .ok (r, w')) :
    ∃ q', Ready j w' q' ∧ (r = none → q'.payloadWritten = j.body.length) := by
  obtain ⟨p, chunks, hp, hw', hcases⟩ := writeDigest_cases hw
  obtain rfl : p = q := Option.some.inj (hp.symm.trans h.pdu)
  rw [h.endsWithDigest hj hpad, h.payloadLen] at hcases
  have hbody : j.body.length = pad4 j.pdu.payloadLen + (wireDigest j.dataDigest j.data).length := by
    rw [Job.body, List.length_append, hj.padded_length]
  have hple := h.bodyLe
  have hpdu : w'.pdus j.addr = some { p with
      payloadWritten := p.payloadWritten + chunks.flatten.length
      calculatedDataDigest := p.calculatedDataDigest } := by
    rw [hw']
    exact Function.update_self ..
  -- the digest covers no byte that is sent here
  have hdigest : j.dataDigest ≠ .none → p.calculatedDataDigest = crc32cChain 0xffffffff
      (if p.outdataDigestComputed then padded j.immediate
        else (padded j.payload).take (p.payloadWritten + chunks.flatten.length)) := fun hne => by
    rw [h.digest hne, List.take_of_length_le (by rw [hj.padded_length]; exact hpad),
      List.take_of_length_le (by rw [hj.padded_length]; omega)]
  have hctx : w'.iscsi = w.iscsi := by rw [hw']; rfl
  have hsent : sentOf j.addr w'.trace = sentOf j.addr w.trace ++ chunks.flatten := by
    rw [hw', World.emitted_sent]
  rcases hcases with ⟨⟨hne, hdata⟩, hpre, hend⟩ | ⟨hnot, rfl, hend⟩
  · have hdlen : (wireDigest j.dataDigest j.data).length = 4 := by
      rw [wireDigest, if_neg (by simp [hne, hdata]), length_digestBytes]
    have hx : chunks.flatten <+: j.body.drop p.payloadWritten := by
      rw [h.digestValue hj hne hdata hpad] at hpre
      rw [Job.body, List.drop_append, hj.padded_length,
        List.drop_eq_nil_of_le (by rw [hj.padded_length]; exact hpad), List.nil_append]
      have hcut : iscsiDigestSize - (pad4 j.pdu.payloadLen + iscsiDigestSize - p.payloadWritten) =
          p.payloadWritten - pad4 j.pdu.payloadLen := by
        unfold iscsiDigestSize
        omega
      rwa [hcut] at hpre
    refine ⟨_, h.more hpdu hctx hsent hx hdigest, fun hr => ?_⟩
    rw [hbody, hdlen]
    exact hend hr
  · have hnil : wireDigest j.dataDigest j.data = [] := by
      rw [wireDigest, if_pos]
      by_contra hor
      exact hnot (by simpa using hor)
    refine ⟨_, h.more hpdu hctx hsent List.nil_prefix hdigest, fun hr => ?_⟩
    rw [hbody, hnil]
    exact hend hr

end

/-! ## A turn -/

/-- All of the PDU has been sent. -/
theorem Ready.sentAll {j : Job} {w : World} {q : Pdu} (hj : j.Ok) (h : Ready j w q)
    (hdone : q.payloadWritten = j.body.length) : sentOf j.addr w.trace =
      wire j.headerDigest j.dataDigest j.header j.data := by
  rw [h.sent, h.written, hdone, List.take_length, List.take_length, hj.wire_eq]

/-- What has been sent is a start of the PDU. -/
theorem Progress.sentStart {j : Job} {w : World} {q : Pdu} (hj : j.Ok) (h : Progress j w q) :
    sentOf j.addr w.trace <+: wire j.headerDigest j.dataDigest j.header j.data := by
  rw [h.sent, hj.wire_eq]
  rcases Nat.lt_or_ge q.outdataWritten j.buffer.length with hlt | hge
  · rw [h.first hlt, List.take_zero, List.append_nil]
    exact (List.take_prefix _ _).trans (List.prefix_append _ _)
  · rw [List.take_of_length_le hge, List.prefix_append_right_inj]
    exact List.take_prefix _ _

/-- **A turn for the PDU**: it has got further, or all of it has been sent and it is done. -/
theorem Job.writeCurrent {j : Job} {w w' : World} {q : Pdu} {r : Option Int} (hj : j.Ok)
    (h : Progress j w q) (hs : j.Source w) (hw : writeCurrent w j.addr = .ok (r, w')) :
    (r ≠ none ∧ ∃ q', Progress j w' q') ∨
      r = none ∧ ∃ w₁ q₁, Ready j w₁ q₁ ∧ q₁.payloadWritten = j.body.length ∧
        w₁.iscsi = w.iscsi ∧ writeDone w₁ j.addr = .ok w' := by
  unfold Libiscsi.writeCurrent at hw
  obtain ⟨s, rfl, h₁⟩ | ⟨w₁, h₁, hw⟩ := andThen_eq_ok hw
  · obtain ⟨q₁, hq₁, _⟩ := h.header hj h₁
    exact .inl ⟨by simp, q₁, hq₁⟩
  obtain ⟨q₁, hq₁, hhead⟩ := h.header hj h₁
  have hs₁ := hs.keep (KeepsVectors.writeHeader h₁) (writeHeader_sending h₁).mem
  obtain ⟨w₂, h₂, hw⟩ := Outcome.bind_eq_ok.1 hw
  obtain ⟨q₂, hq₂⟩ := hq₁.digestOutdata hj (hhead rfl).1 (hhead rfl).2 h₂
  have hs₂ := hs₁.keep (KeepsVectors.digestOutdata h₂) (digestOutdata_sending h₂).mem
  obtain ⟨p, _, hw⟩ := Outcome.bind_eq_ok.1 hw
  obtain ⟨s, rfl, h₃⟩ | ⟨w₃, h₃, hw⟩ := andThen_eq_ok hw
  · obtain ⟨q₃, hq₃, _⟩ := Ready.writePayload hj hq₂ hs₂ h₃
    exact .inl ⟨by simp, q₃, hq₃.toProgress⟩
  obtain ⟨q₃, hq₃, hpay⟩ := Ready.writePayload hj hq₂ hs₂ h₃
  obtain ⟨s, rfl, h₄⟩ | ⟨w₄, h₄, hw⟩ := andThen_eq_ok hw
  · obtain ⟨q₄, hq₄, _⟩ := hq₃.writePadding hj (hpay rfl) h₄
    exact .inl ⟨by simp, q₄, hq₄.toProgress⟩
  obtain ⟨q₄, hq₄, hpad⟩ := hq₃.writePadding hj (hpay rfl) h₄
  obtain ⟨s, rfl, h₅⟩ | ⟨w₅, h₅, hw⟩ := andThen_eq_ok hw
  · obtain ⟨q₅, hq₅, _⟩ := hq₄.writeDigest hj (hpad rfl) h₅
    exact .inl ⟨by simp, q₅, hq₅.toProgress⟩
  obtain ⟨q₅, hq₅, hdone⟩ := hq₄.writeDigest hj (hpad rfl) h₅
  obtain ⟨w₆, h₆, hw⟩ := Outcome.bind_eq_ok.1 hw
  obtain ⟨rfl, rfl⟩ := Prod.mk.inj (Except.ok.inj hw)
  refine .inr ⟨rfl, w₅, q₅, hq₅, hdone rfl, ?_, h₆⟩
  rw [(writeDigest_sending h₅).iscsi, (writePadding_sending h₄).iscsi,
    (writePayload_sending h₃).iscsi, (digestOutdata_sending h₂).iscsi,
    (writeHeader_sending h₁).iscsi]

/-! ## Runs of calls -/

/-- A PDU that is queued to be written, with the data in its buffer and its payload. -/
structure Load where
  addr : Addr
  pdu : Pdu
  immediate : List UInt8
  payload : List UInt8
  headerDigest : DigestMode
  dataDigest : DigestMode

namespace Load

/-- The header that goes out: the one that was built, with an ExpStatSN. -/
def header (l : Load) (expstatsn : UInt32) : List UInt8 :=
  (l.pdu.setExpstatsn expstatsn).outdata.take iscsiRawHeaderSize

/-- The data of the PDU. -/
def data (l : Load) : List UInt8 := l.immediate ++ l.payload

/-- The PDU as it goes out with an ExpStatSN. -/
def job (l : Load) (expstatsn : UInt32) : Job where
  addr := l.addr
  pdu := { l.pdu with
    outdata := wireHeader l.headerDigest (l.header expstatsn) ++ l.immediate }
  header := l.header expstatsn
  immediate := l.immediate
  payload := l.payload
  headerDigest := l.headerDigest
  dataDigest := l.dataDigest

/-- The payload stands in the vectors of the task of the PDU. -/
def Source (l : Load) (w : World) : Prop := (l.job 0).Source w

/-- The PDU was built for a session with the digests of the context, is in `outqueue`, and nothing
of it has been sent. -/
structure Queued (l : Load) (w : World) : Prop where
  built : l.pdu.Built w.iscsi l.immediate
  headerDigest : w.iscsi.headerDigest = l.headerDigest
  dataDigest : w.iscsi.dataDigest = l.dataDigest
  pdu : w.pdus l.addr = some l.pdu
  queued : w.iscsi.outqueue.count l.addr = 1
  current : w.iscsi.outqueueCurrent ≠ some l.addr
  unsent : sentOf l.addr w.trace = []
  payloadLen : l.pdu.payloadLen = l.payload.length
  source : l.Source w
  small : l.data.length < 2 ^ 24

/-- Something happens that leaves the PDU and its data alone. -/
structure Untouched (l : Load) (w w' : World) : Prop where
  headerDigest : w'.iscsi.headerDigest = w.iscsi.headerDigest
  dataDigest : w'.iscsi.dataDigest = w.iscsi.dataDigest
  pdu : w'.pdus l.addr = w.pdus l.addr
  queued : w'.iscsi.outqueue.count l.addr = w.iscsi.outqueue.count l.addr
  current : w'.iscsi.outqueueCurrent = some l.addr ↔ w.iscsi.outqueueCurrent = some l.addr
  sent : sentOf l.addr w'.trace = sentOf l.addr w.trace
  source : l.Source w → l.Source w'

end Load

/-- What happens between the calls of `iscsi_write_to_socket`. -/
inductive Call where
  | write
  | other

/-- The steps of a program that writes a PDU: calls of `iscsi_write_to_socket`, which may return
anything, and what leaves the PDU alone. -/
inductive CallStep (l : Load) : Call → World → World → Prop where
  | write {w w' : World} {r : Int} (h : iscsiWriteToSocket w = .ok (r, w')) :
      CallStep l .write w w'
  | other {w w' : World} (h : l.Untouched w w') : CallStep l .other w w'

/-- Where the PDU is. -/
inductive Load.State (l : Load) (w : World) : Prop where
  | queued (hq : w.iscsi.outqueue.count l.addr = 1)
      (hcur : w.iscsi.outqueueCurrent ≠ some l.addr) (hp : w.pdus l.addr = some l.pdu)
      (hsent : sentOf l.addr w.trace = [])
  | sending (expstatsn : UInt32) (q : Pdu) (hq : w.iscsi.outqueue.count l.addr = 0)
      (hcur : w.iscsi.outqueueCurrent = some l.addr) (h : Progress (l.job expstatsn) w q)
  | done (expstatsn : UInt32) (hq : w.iscsi.outqueue.count l.addr = 0)
      (hcur : w.iscsi.outqueueCurrent ≠ some l.addr)
      (hsent : sentOf l.addr w.trace =
        wire l.headerDigest l.dataDigest (l.header expstatsn) l.data)

/-- The invariant of the calls. -/
structure Load.Inv (l : Load) (w : World) : Prop where
  headerDigest : w.iscsi.headerDigest = l.headerDigest
  dataDigest : w.iscsi.dataDigest = l.dataDigest
  source : l.Source w
  state : l.State w

/-- What the PDU was built as stays true of it. -/
structure Load.Fits (l : Load) : Prop where
  length : l.pdu.outdata.length = iscsiHeaderSize l.headerDigest + l.immediate.length
  taken : ∀ c : Context, c.headerDigest = l.headerDigest → ∀ q, l.pdu.TakenAs c q →
    ∃ expstatsn, q = (l.job expstatsn).pdu
  ok : ∀ expstatsn, (l.job expstatsn).Ok
  outdataWritten : l.pdu.outdataWritten = 0
  payloadWritten : l.pdu.payloadWritten = 0
  calculatedDataDigest : l.pdu.calculatedDataDigest = 0xffffffff
  outdataDigestComputed : l.pdu.outdataDigestComputed = false

section
variable {l : Load} {w w' : World}

/-- A PDU that was built fits its data. -/
theorem Load.Queued.fits (h : l.Queued w) : l.Fits := by
  have hh := h.built.holds
  have hlen : l.pdu.outdata.length = iscsiHeaderSize l.headerDigest + l.immediate.length := by
    rw [← h.headerDigest]
    exact hh.length
  have hbig : iscsiRawHeaderSize ≤ l.pdu.outdata.length := by
    rw [hlen, iscsiHeaderSize]
    omega
  refine ⟨hlen, fun c hc q hq => ?_, fun e => ?_, hh.outdataWritten, hh.payloadWritten,
    hh.calculatedDataDigest, hh.outdataDigestComputed⟩
  · have hholds : l.pdu.Holds c l.immediate :=
      ⟨by rw [hlen, hc], by rw [hc, ← h.headerDigest]; exact hh.rest, hh.size, hh.one,
        hh.outdataWritten, hh.payloadWritten, hh.calculatedDataDigest, hh.outdataDigestComputed⟩
    obtain ⟨e, he⟩ := hholds.taken hq
    refine ⟨e, ?_⟩
    rw [hq.spec.1, he, hc]
    rfl
  · have hfill : l.pdu.FilledAs (l.pdu.setExpstatsn e) := .setField (by decide) e
    refine ⟨rfl, ?_, h.payloadLen, ?_, ?_, h.small⟩
    · change ((l.pdu.setExpstatsn e).outdata.take _).length = _
      rw [List.length_take, hfill.length]
      exact Nat.min_eq_left hbig
    · rcases hh.one with hnil | hzero
      · exact .inl hnil
      · exact .inr (List.length_eq_zero_iff.1 (h.payloadLen ▸ hzero))
    · change scsiGetUint32 ((l.pdu.setExpstatsn e).outdata.take _) 4 = _
      rw [scsiGetUint32_take (by decide), Pdu.setExpstatsn, Pdu.setField,
        scsiGetUint32_setUint32 (.inl (by decide)), hh.size, h.payloadLen]
      exact congrArg UInt32.ofNat (List.length_append ..).symm

/-- The invariant holds of a PDU that was queued. -/
theorem Load.Queued.inv (h : l.Queued w) : l.Inv w :=
  ⟨h.headerDigest, h.dataDigest, h.source, .queued h.queued h.current h.pdu h.unsent⟩

/-- What leaves the PDU alone keeps the invariant. -/
theorem Load.Inv.untouched (h : l.Inv w) (hu : l.Untouched w w') : l.Inv w' := by
  refine ⟨hu.headerDigest.trans h.headerDigest, hu.dataDigest.trans h.dataDigest,
    hu.source h.source, ?_⟩
  cases h.state with
  | queued hq hcur hp hsent =>
    exact .queued (hu.queued.trans hq) (fun hc => hcur (hu.current.1 hc)) (hu.pdu.trans hp)
      (hu.sent.trans hsent)
  | sending e q hq hcur h =>
    exact .sending e q (hu.queued.trans hq) (hu.current.2 hcur) { h with
      pdu := hu.pdu.trans h.pdu
      headerDigest := hu.headerDigest.trans h.headerDigest
      dataDigest := hu.dataDigest.trans h.dataDigest
      sent := hu.sent.trans h.sent }
  | done e hq hcur hsent =>
    exact .done e (hu.queued.trans hq) (fun hc => hcur (hu.current.1 hc)) (hu.sent.trans hsent)

/-- What is done when a PDU has been sent. -/
theorem writeDone_effect {a : Addr} (h : writeDone w a = .ok w') :
    w'.iscsi.outqueueCurrent = none ∧ w'.iscsi.outqueue = w.iscsi.outqueue ∧
      w'.iscsi.headerDigest = w.iscsi.headerDigest ∧ w'.iscsi.dataDigest = w.iscsi.dataDigest ∧
      w'.mem = w.mem ∧ (∀ b, b ≠ a → w'.pdus b = w.pdus b) ∧
      ∀ b, sentOf b w'.trace = sentOf b w.trace := by
  unfold writeDone releaseSent at h
  obtain ⟨p, _, h⟩ := Outcome.bind_eq_ok.1 h
  obtain ⟨w₁, hrel, h⟩ := Outcome.bind_eq_ok.1 h
  obtain rfl := Except.ok.inj h
  have hrel' : w₁ = (if p.hasFlag iscsiPduCorkWhenSent then
      w.modify fun c => { c with isCorked := true } else w) ∨
      w₁ = (if p.hasFlag iscsiPduCorkWhenSent then
        w.modify fun c => { c with isCorked := true } else w).release a := by
    split at hrel
    · exact .inr (iscsiFreePdu_eq_ok.1 hrel).2
    · exact .inl (Except.ok.inj hrel).symm
  rcases hrel' with rfl | rfl
  · split <;> exact ⟨rfl, rfl, rfl, rfl, rfl, fun _ _ => rfl, fun _ => rfl⟩
  · split <;>
    · refine ⟨rfl, rfl, rfl, rfl, rfl, fun b hb => Function.update_of_ne hb .., fun b => ?_⟩
      simp [World.release]

/-- A turn for another PDU leaves the PDU alone. -/
theorem writeCurrent_untouched {b : Addr} {r : Option Int} (hb : b ≠ l.addr)
    (hcur : w.iscsi.outqueueCurrent = some b) (h : writeCurrent w b = .ok (r, w')) :
    l.Untouched w w' := by
  have hkeep := KeepsVectors.writeCurrent h
  have hsentOf : ∀ {w₁}, Sending b w w₁ → sentOf l.addr w₁.trace = sentOf l.addr w.trace := by
    intro w₁ hs
    obtain ⟨chunks, htrace⟩ := hs.trace
    rw [htrace, sentOf_append, sentOf_of_ne hb, List.append_nil]
  obtain ⟨_, _, hs⟩ | ⟨_, w₁, hs, hd⟩ := writeCurrent_cases h
  · exact ⟨by rw [hs.iscsi], by rw [hs.iscsi], hs.of_ne hb.symm, by rw [hs.iscsi],
      by rw [hs.iscsi], hsentOf hs, fun hsrc => hsrc.keep hkeep hs.mem⟩
  · obtain ⟨hnone, hout, hhd, hdd, hmem, hpdu, hsent⟩ := writeDone_effect hd
    refine ⟨by rw [hhd, hs.iscsi], by rw [hdd, hs.iscsi],
      (hpdu _ hb.symm).trans (hs.of_ne hb.symm), by rw [hout, hs.iscsi], ?_,
      (hsent _).trans (hsentOf hs), fun hsrc => hsrc.keep hkeep (hmem.trans hs.mem)⟩
    rw [hnone, hcur]
    simp [hb]

/-- Taking another PDU leaves the PDU alone. -/
theorem takeHead_untouched {b : Addr} {r : Option Int} (hb : b ≠ l.addr)
    (hcur : w.iscsi.outqueueCurrent = none) (h : takeHead w b = .ok (r, w')) :
    l.Untouched w w' := by
  obtain ⟨_, rfl⟩ | ⟨p, _, ⟨_, _, _, rfl⟩ | ⟨_, q, _, rfl⟩⟩ := takeHead_cases h
  · exact ⟨rfl, rfl, rfl, rfl, Iff.rfl, rfl, id⟩
  · refine ⟨rfl, rfl, Function.update_of_ne hb.symm .., rfl, ?_, rfl, fun hsrc =>
      hsrc.keep (.of_tasks rfl) rfl⟩
    simp [hcur, hb]
  · obtain ⟨htasks, hmem, hdata⟩ := World.taken_frame w b q
    refine ⟨by simp, hdata, by simp [Ne.symm hb], ?_, ?_, by simp, fun hsrc =>
      hsrc.keep (.of_tasks htasks) hmem⟩
    · rw [World.taken_outqueue, List.count_erase_of_ne hb.symm]
    · simp [hcur, hb]

/-- A turn for the PDU that is being sent. -/
theorem Load.Inv.current (hf : l.Fits) (h : l.Inv w) {r : Option Int}
    (hcur : w.iscsi.outqueueCurrent = some l.addr) (hw : writeCurrent w l.addr = .ok (r, w')) :
    l.Inv w' := by
  cases h.state with
  | queued _ hne => exact absurd hcur hne
  | done _ _ hne => exact absurd hcur hne
  | sending e q hq _ hprog =>
    have hkeep := KeepsVectors.writeCurrent hw
    have hsrc : (l.job e).Source w := h.source
    rcases Job.writeCurrent (hf.ok e) hprog hsrc hw with
      ⟨hr, q', hq'⟩ | ⟨rfl, w₁, q₁, hready, hdone, hctx, hd⟩
    · obtain ⟨_, _, hs⟩ | ⟨hnone, _⟩ := writeCurrent_cases hw
      · exact ⟨by rw [hs.iscsi]; exact h.headerDigest, by rw [hs.iscsi]; exact h.dataDigest,
          hsrc.keep hkeep hs.mem, .sending e q' (by rw [hs.iscsi]; exact hq)
            (by rw [hs.iscsi]; exact hcur) hq'⟩
      · exact absurd hnone hr
    · obtain ⟨hnone, hout, hhd, hdd, hmem, _, hsent⟩ := writeDone_effect hd
      have hmem₀ : w'.mem = w.mem := by
        obtain ⟨_, hsome, _⟩ | ⟨_, w₂, hs₂, hd₂⟩ := writeCurrent_cases hw
        · cases hsome
        · exact (writeDone_effect hd₂).2.2.2.2.1.trans hs₂.mem
      refine ⟨by rw [hhd, hctx]; exact h.headerDigest, by rw [hdd, hctx]; exact h.dataDigest,
        hsrc.keep hkeep hmem₀, .done e (by rw [hout, hctx]; exact hq) (by simp [hnone]) ?_⟩
      rw [hsent]
      exact hready.sentAll (hf.ok e) hdone

/-- The PDU is taken, or stays where it is. -/
theorem Load.Inv.take (hf : l.Fits) (h : l.Inv w) {r : Option Int} {rest : List Addr}
    (hout : w.iscsi.outqueue = l.addr :: rest) (ht : takeHead w l.addr = .ok (r, w')) :
    l.Inv w' := by
  have hcount : w.iscsi.outqueue.count l.addr ≠ 0 := by simp [hout]
  cases h.state with
  | sending _ _ hq => exact absurd hq hcount
  | done _ hq => exact absurd hq hcount
  | queued hq hne hp hsent =>
    obtain ⟨_, rfl⟩ | ⟨p, hp', ⟨_, hdig, hshort, _⟩ | ⟨_, q, htaken, rfl⟩⟩ := takeHead_cases ht
    · exact h
    · obtain rfl : p = l.pdu := Option.some.inj (hp'.symm.trans hp)
      rw [hf.length, ← h.headerDigest, iscsiHeaderSize, if_neg hdig] at hshort
      omega
    · obtain rfl : p = l.pdu := Option.some.inj (hp'.symm.trans hp)
      obtain ⟨e, rfl⟩ := hf.taken w.iscsi h.headerDigest q htaken
      have hhead : (w.taken l.addr (l.job e).pdu).iscsi.headerDigest = l.headerDigest := by
        simpa using h.headerDigest
      obtain ⟨htasks, hmem, hdata⟩ := World.taken_frame w l.addr (l.job e).pdu
      rw [h.dataDigest] at hdata
      have hzero : (l.job e).pdu.outdataWritten = 0 := hf.outdataWritten
      have hzero' : (l.job e).pdu.payloadWritten = 0 := hf.payloadWritten
      refine ⟨hhead, hdata, h.source.keep (.of_tasks htasks) hmem,
        .sending e (l.job e).pdu ?_ (by simp) ⟨by simp [job], hhead, hdata, rfl,
          (hf.ok e).aligned, by omega, fun _ => hzero', by omega, fun hc => ?_, fun _ => ?_, ?_⟩⟩
      · rw [World.taken_outqueue, List.count_erase_self, hq]
      · have : (l.job e).pdu.outdataDigestComputed = false := hf.outdataDigestComputed
        rw [this] at hc
        cases hc
      · have hcomp : (l.job e).pdu.outdataDigestComputed = false := hf.outdataDigestComputed
        rw [hcomp, hzero']
        exact hf.calculatedDataDigest
      · rw [hzero, hzero', World.taken_trace, sentOf_append, sentOf_taken, List.append_nil]
        exact hsent

/-- A turn of the loop keeps the invariant. -/
theorem Load.Inv.writeTurn (hf : l.Fits) (h : l.Inv w) {r : Option Int}
    (hw : writeTurn w = .ok (r, w')) : l.Inv w' := by
  have hcurrent : ∀ {w : World} {b : Addr} {r : Option Int}, l.Inv w →
      w.iscsi.outqueueCurrent = some b → Libiscsi.writeCurrent w b = .ok (r, w') → l.Inv w' := by
    intro w b r h hcur hc
    by_cases hb : b = l.addr
    · subst hb
      exact h.current hf hcur hc
    · exact h.untouched (writeCurrent_untouched hb hcur hc)
  unfold Libiscsi.writeTurn at hw
  rcases hcur : w.iscsi.outqueueCurrent with _ | b
  · rcases hq : w.iscsi.outqueue with _ | ⟨b, rest⟩
    · rw [hcur, hq] at hw
      obtain ⟨_, rfl⟩ := Prod.mk.inj (Except.ok.inj hw)
      exact h
    · rw [hcur, hq] at hw
      have htake : ∀ {s : Option Int} {w₁ : World}, takeHead w b = .ok (s, w₁) → l.Inv w₁ := by
        intro s w₁ ht
        by_cases hb : b = l.addr
        · subst hb
          exact h.take hf hq ht
        · exact h.untouched (takeHead_untouched hb hcur ht)
      obtain ⟨s, _, ht⟩ | ⟨w₁, ht, hc⟩ := andThen_eq_ok hw
      · exact htake ht
      · exact hcurrent (htake ht) (takeHead_current ht) hc
  · rw [hcur] at hw
    exact hcurrent h hcur hw

theorem Load.Inv.writeLoop (hf : l.Fits) : ∀ {fuel : Nat} {w : World} {r : Int}, l.Inv w →
    writeLoop fuel w = .ok (r, w') → l.Inv w'
  | 0, _, _, _, hw => by cases hw
  | fuel + 1, w, r, h, hw => by
    unfold Libiscsi.writeLoop at hw
    obtain ⟨⟨s, w₁⟩, ht, hw⟩ := Outcome.bind_eq_ok.1 hw
    have h₁ := h.writeTurn hf ht
    cases s with
    | some s =>
      obtain ⟨_, rfl⟩ := Prod.mk.inj (Except.ok.inj hw)
      exact h₁
    | none => exact Load.Inv.writeLoop hf h₁ hw

/-- A step keeps the invariant. -/
theorem Load.Inv.step (hf : l.Fits) (h : l.Inv w) {c : Call} (hs : CallStep l c w w') :
    l.Inv w' := by
  cases hs with
  | other hu => exact h.untouched hu
  | write hw =>
    unfold iscsiWriteToSocket at hw
    split at hw
    · obtain ⟨_, rfl⟩ := Prod.mk.inj (Except.ok.inj hw)
      exact h
    · exact h.writeLoop hf hw

/-- A run keeps the invariant. -/
theorem Load.Inv.run (hf : l.Fits) (h : l.Inv w) (hrun : Run (CallStep l) w w') : l.Inv w' := by
  induction hrun with
  | refl => exact h
  | tail _ hs ih =>
    obtain ⟨_, hs⟩ := hs
    exact ih.step hf hs

end

/-! ## The bytes that have been written -/

/-- What has been written of the PDU is a start of its header and digest, its data, padding, and
digest, where the header gives the length of the data; and it is all of that once the PDU is
neither queued nor being sent. -/
def Load.WrittenExactly (l : Load) (w : World) : Prop :=
  ∃ expstatsn, (l.header expstatsn).length = iscsiRawHeaderSize ∧
    iscsiGetPduDataSize (l.header expstatsn) = l.data.length ∧
    sentOf l.addr w.trace <+:
      wire l.headerDigest l.dataDigest (l.header expstatsn) l.data ∧
    (l.addr ∉ w.iscsi.outqueue → w.iscsi.outqueueCurrent ≠ some l.addr →
      sentOf l.addr w.trace = wire l.headerDigest l.dataDigest (l.header expstatsn) l.data)

/-- **The bytes written of a PDU are exactly its header, header digest, data, padding and data
digest**, however the socket cuts them, over any number of calls of `iscsi_write_to_socket`. -/
theorem written_exactly {l : Load} {w₀ w : World} (h : l.Queued w₀)
    (hrun : Run (CallStep l) w₀ w) : l.WrittenExactly w := by
  have hf := h.fits
  have hheader : ∀ e, (l.header e).length = iscsiRawHeaderSize ∧
      iscsiGetPduDataSize (l.header e) = l.data.length := fun e => by
    refine ⟨(hf.ok e).header, ?_⟩
    have hsize := (hf.ok e).dataSize
    rwa [iscsiGetPduDataSize, (hf.ok e).buffer_field (by decide)] at hsize
  cases (h.inv.run hf hrun).state with
  | queued hq _ _ hsent =>
    refine ⟨0, (hheader 0).1, (hheader 0).2, by rw [hsent]; exact List.nil_prefix, fun hout => ?_⟩
    exact absurd (List.count_eq_zero.2 hout) (by omega)
  | sending e q _ hcur hprog =>
    exact ⟨e, (hheader e).1, (hheader e).2, hprog.sentStart (hf.ok e),
      fun _ hne => absurd hcur hne⟩
  | done e _ _ hsent =>
    exact ⟨e, (hheader e).1, (hheader e).2, hsent ▸ List.prefix_rfl, fun _ _ => hsent⟩

/-! ## A PDU with five bytes of data -/

/-- A session with both digests, in which the socket takes seven bytes, then the rest but for the
data digest, with `EAGAIN` for that at first. -/
def fiveBytesSession : World where
  iscsi := { fd := 3, headerDigest := .crc32c, dataDigest := .crc32c }
  sends := [.accepted 6, .accepted 100, .again, .accepted 3]

/-- The session with a PDU that was allocated and got five bytes of data. -/
def fiveBytesBuilt : World :=
  let w := (iscsiAllocatePdu fiveBytesSession iscsiPduNopOut iscsiPduNopIn 7 0).2
  match iscsiPduAddData w 0 [1, 2, 3, 4, 5] with
  | .ok (_, w) => w
  | .error _ => w

/-- The PDU is queued. -/
def fiveBytesStart : World :=
  fiveBytesBuilt.modify fun c => c.setOutqueue [0]

/-- The PDU and its data. -/
def fiveBytes : Load where
  addr := 0
  pdu := (fiveBytesBuilt.pdus 0).getD {}
  immediate := [1, 2, 3, 4, 5]
  payload := []
  headerDigest := .crc32c
  dataDigest := .crc32c

/-- The world after a call of `iscsi_write_to_socket`. -/
def afterWrite (w : World) : World :=
  match iscsiWriteToSocket w with
  | .ok (_, w') => w'
  | .error _ => w

/-- A call that returns is a step. -/
theorem afterWrite_step {l : Load} {w : World} (h : (iscsiWriteToSocket w).isOk = true) :
    CallStep l .write w (afterWrite w) := by
  rcases hw : iscsiWriteToSocket w with e | ⟨r, w'⟩
  · rw [hw] at h
    cases h
  · have : afterWrite w = w' := by rw [afterWrite, hw]
    rw [this]
    exact .write hw

/-- The PDU was built and queued. -/
theorem fiveBytes_queued : fiveBytes.Queued fiveBytesStart where
  built := by
    have hadd : iscsiPduAddData
        (iscsiAllocatePdu fiveBytesSession iscsiPduNopOut iscsiPduNopIn 7 0).2 0
        [1, 2, 3, 4, 5] = .ok (0, fiveBytesBuilt) := rfl
    exact .addData (w := (iscsiAllocatePdu fiveBytesSession iscsiPduNopOut iscsiPduNopIn 7 0).2)
      (.allocate iscsiPduNopOut iscsiPduNopIn 7 0) rfl rfl rfl hadd rfl
  headerDigest := rfl
  dataDigest := rfl
  pdu := rfl
  queued := by decide
  current := by decide
  unsent := rfl
  payloadLen := rfl
  source h := absurd rfl h
  small := by decide

/-- Three calls write the PDU: 48 bytes of header, four of digest, the data with three zeros, and
four bytes of digest. -/
theorem written_exactly_fiveBytes :
    fiveBytes.WrittenExactly (afterWrite (afterWrite (afterWrite fiveBytesStart))) ∧
      (sentOf 0 (afterWrite (afterWrite (afterWrite fiveBytesStart))).trace).length = 64 := by
  refine ⟨written_exactly fiveBytes_queued ?_, by decide +kernel⟩
  refine ((Run.single (afterWrite_step ?_)).tail ⟨_, afterWrite_step ?_⟩).tail
    ⟨_, afterWrite_step ?_⟩ <;>
  decide +kernel

end Libiscsi
