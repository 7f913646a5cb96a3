import Libiscsi.WriteStages

/-!
# The bytes of a PDU on the wire

What a PDU is on the wire is said twice here: from its header and its data, as the protocol has
it (`wire`), and from the record that the functions of `lib/pdu.c` built (`Pdu.Built`). A PDU that
becomes `outqueue_current` has its header, its header digest and its immediate data in `outdata`
(`Pdu.Holds.taken`), so that the stages of `iscsi_write_to_socket` send the regions of `wire` in
their order.
-/

namespace Libiscsi

/-! ## The format -/

/-- The data of a PDU with zeros up to a multiple of four bytes. -/
def padded (data : List UInt8) : List UInt8 :=
  data ++ List.replicate ((4 - data.length % 4) % 4) 0

/-- The header, and its digest if headers have digests. -/
def wireHeader (headerDigest : DigestMode) (header : List UInt8) : List UInt8 :=
  header ++ if headerDigest = .none then [] else digestBytes (crc32c header)

/-- The digest of the padded data, if data have digests and there are any. -/
def wireDigest (dataDigest : DigestMode) (data : List UInt8) : List UInt8 :=
  if dataDigest = .none ∨ data = [] then [] else digestBytes (crc32c (padded data))

/-- The bytes of a PDU: its header and the digest of it, its padded data and the digest of that. -/
def wire (headerDigest dataDigest : DigestMode) (header data : List UInt8) : List UInt8 :=
  wireHeader headerDigest header ++ padded data ++ wireDigest dataDigest data

@[simp] theorem padded_nil : padded [] = [] := rfl

@[simp] theorem length_digestBytes (crc : UInt32) : (digestBytes crc).length = 4 := rfl

/-- A number of less than 32 bits is rounded up to a multiple of four. -/
theorem pad4_eq {n : Nat} (h : n + 3 < 2 ^ 32) : pad4 n = (n + 3) / 4 * 4 := by
  have hdiv : pad4 n / 2 ^ 2 = (n + 3) / 4 := by
    rw [pad4, Nat.and_div_two_pow, show 0xfffffffc / 2 ^ 2 = 2 ^ 30 - 1 from rfl,
      Nat.and_two_pow_sub_one_eq_mod]
    exact Nat.mod_eq_of_lt (by omega)
  have hmod : pad4 n % 2 ^ 2 = 0 := by
    rw [pad4, Nat.and_mod_two_pow, show 0xfffffffc % 2 ^ 2 = 0 from rfl, Nat.and_zero]
  omega

theorem padded_eq {data : List UInt8} (h : data.length + 3 < 2 ^ 32) :
    padded data = data ++ List.replicate (pad4 data.length - data.length) 0 := by
  rw [padded, pad4_eq h]
  congr 2
  omega

/-! ## Building a PDU -/

/-- Fields are written into the header of a PDU, and into the PDU itself, other than those that
say how much of it has been sent. -/
structure Pdu.FilledAs (p q : Pdu) : Prop where
  length : q.outdata.length = p.outdata.length
  rest : q.outdata.drop iscsiRawHeaderSize = p.outdata.drop iscsiRawHeaderSize
  outdataWritten : q.outdataWritten = p.outdataWritten
  payloadWritten : q.payloadWritten = p.payloadWritten
  calculatedDataDigest : q.calculatedDataDigest = p.calculatedDataDigest
  outdataDigestComputed : q.outdataDigestComputed = p.outdataDigestComputed

/-- The PDU is one that `iscsi_allocate_pdu`, the writes to its header, and any number of calls of
`iscsi_pdu_add_data` built, with these data in `outdata`. The payload of a PDU, which has no data
in `outdata` then, goes with the length in its header. -/
inductive Pdu.Built (c : Context) : Pdu → List UInt8 → Prop where
  | allocate (opcode responseOpcode : UInt8) (itt flags : UInt32) :
      Built c (c.freshPdu opcode responseOpcode itt flags) []
  | setHeader {p q : Pdu} {data : List UInt8} (h : Built c p data) (hf : p.FilledAs q)
      (hlen : q.payloadLen = p.payloadLen)
      (hsize : scsiGetUint32 q.outdata 4 = scsiGetUint32 p.outdata 4) : Built c q data
  | setPayload {p q : Pdu} (h : Built c p []) (hf : p.FilledAs q)
      (hsize : scsiGetUint32 q.outdata 4 = UInt32.ofNat q.payloadLen) : Built c q []
  | addData {p q : Pdu} {data bytes : List UInt8} {w w' : World} {a : Addr} (h : Built c p data)
      (hlen : p.payloadLen = 0) (hc : w.iscsi.headerDigest = c.headerDigest)
      (hp : w.pdus a = some p) (hadd : iscsiPduAddData w a bytes = .ok (0, w'))
      (hq : w'.pdus a = some q) : Built c q (data ++ bytes)

namespace Pdu.FilledAs

variable {p : Pdu}

protected theorem trans {q r : Pdu} (h : p.FilledAs q) (h' : q.FilledAs r) : p.FilledAs r where
  length := h'.length.trans h.length
  rest := h'.rest.trans h.rest
  outdataWritten := h'.outdataWritten.trans h.outdataWritten
  payloadWritten := h'.payloadWritten.trans h.payloadWritten
  calculatedDataDigest := h'.calculatedDataDigest.trans h.calculatedDataDigest
  outdataDigestComputed := h'.outdataDigestComputed.trans h.outdataDigestComputed

/-- A byte of the header is written. -/
theorem setByte {i : Nat} (hi : i < iscsiRawHeaderSize) (v : UInt8) :
    p.FilledAs (p.setByte i v) where
  length := List.length_set
  rest := List.drop_set_of_lt hi
  outdataWritten := rfl
  payloadWritten := rfl
  calculatedDataDigest := rfl
  outdataDigestComputed := rfl

/-- A field of the header is written. -/
theorem setField {i : Nat} (hi : i + 4 ≤ iscsiRawHeaderSize) (v : UInt32) :
    p.FilledAs (p.setField i v) where
  length := length_scsiSetUint32 ..
  rest := by
    unfold Pdu.setField scsiSetUint32
    simp only
    rw [List.drop_set_of_lt (by omega), List.drop_set_of_lt (by omega),
      List.drop_set_of_lt (by omega), List.drop_set_of_lt (by omega)]
  outdataWritten := rfl
  payloadWritten := rfl
  calculatedDataDigest := rfl
  outdataDigestComputed := rfl

/-- The LUN is written. -/
theorem setLun (lun : UInt32) : p.FilledAs { p.setLun lun with lun } where
  length := length_scsiSetUint16 ..
  rest := by
    unfold Pdu.setLun scsiSetUint16
    simp only
    rw [List.drop_set_of_lt (by decide), List.drop_set_of_lt (by decide)]
  outdataWritten := rfl
  payloadWritten := rfl
  calculatedDataDigest := rfl
  outdataDigestComputed := rfl

end Pdu.FilledAs

/-! ## What a built PDU holds -/

/-- Nothing of the PDU has been sent, its header gives the length of its data, and the data follow
the header in `outdata`, or are a payload. -/
structure Pdu.Holds (c : Context) (p : Pdu) (data : List UInt8) : Prop where
  length : p.outdata.length = iscsiHeaderSize c.headerDigest + data.length
  rest : p.outdata.drop (iscsiHeaderSize c.headerDigest) = data
  size : scsiGetUint32 p.outdata 4 = UInt32.ofNat (data.length + p.payloadLen)
  one : data = [] ∨ p.payloadLen = 0
  outdataWritten : p.outdataWritten = 0
  payloadWritten : p.payloadWritten = 0
  calculatedDataDigest : p.calculatedDataDigest = 0xffffffff
  outdataDigestComputed : p.outdataDigestComputed = false

theorem iscsiHeaderSize_cases (m : DigestMode) :
    m = .none ∧ iscsiHeaderSize m = 48 ∨ m ≠ .none ∧ iscsiHeaderSize m = 52 := by
  cases m <;> simp [iscsiHeaderSize, iscsiRawHeaderSize, iscsiDigestSize]

/-- What follows the header does not change with the header. -/
theorem Pdu.FilledAs.drop {p q : Pdu} (h : p.FilledAs q) (m : DigestMode) :
    q.outdata.drop (iscsiHeaderSize m) = p.outdata.drop (iscsiHeaderSize m) := by
  have := congrArg (List.drop (iscsiHeaderSize m - iscsiRawHeaderSize)) h.rest
  rw [List.drop_drop, List.drop_drop] at this
  have hsize :
      iscsiRawHeaderSize + (iscsiHeaderSize m - iscsiRawHeaderSize) = iscsiHeaderSize m := by
    unfold iscsiHeaderSize
    omega
  rwa [hsize] at this

/-- The length in the header of a new PDU is zero. -/
theorem freshPdu_size (c : Context) (opcode responseOpcode : UInt8) (itt flags : UInt32) :
    scsiGetUint32 (c.freshPdu opcode responseOpcode itt flags).outdata 4 = 0 := by
  have hzero : scsiGetUint32 ((List.replicate (iscsiHeaderSize c.headerDigest) 0).set 0 opcode) 4 =
      0 := by
    rw [scsiGetUint32_setByte (.inl (by decide))]
    have hbyte : ∀ i, byte (List.replicate (iscsiHeaderSize c.headerDigest) 0) i = 0 := fun i => by
      simp [byte, List.getElem?_replicate]
      grind
    simp only [scsiGetUint32, hbyte]
    decide
  unfold Context.freshPdu Pdu.setItt Pdu.setField
  simp only
  rw [scsiGetUint32_setUint32 (.inl (by decide))]
  split
  · rw [scsiGetUint32_copyBytes (.inl (by decide)), hzero]
  · exact hzero

/-- **A PDU that was built holds its data.** -/
theorem Pdu.Built.holds {c : Context} {p : Pdu} {data : List UInt8} (h : p.Built c data) :
    p.Holds c data := by
  induction h with
  | allocate opcode responseOpcode itt flags =>
    have hlen : (c.freshPdu opcode responseOpcode itt flags).outdata.length =
        iscsiHeaderSize c.headerDigest := by
      unfold Context.freshPdu Pdu.setItt Pdu.setField
      simp only [length_scsiSetUint32]
      split <;> simp
    exact ⟨by simp [hlen], List.drop_eq_nil_of_le hlen.le, freshPdu_size .., .inl rfl, rfl,
      rfl, rfl, rfl⟩
  | setHeader _ hf hlen hsize ih =>
    exact ⟨hf.length.trans ih.length, (hf.drop _).trans ih.rest,
      by rw [hsize, ih.size, hlen], by rw [hlen]; exact ih.one,
      hf.outdataWritten.trans ih.outdataWritten, hf.payloadWritten.trans ih.payloadWritten,
      hf.calculatedDataDigest.trans ih.calculatedDataDigest,
      hf.outdataDigestComputed.trans ih.outdataDigestComputed⟩
  | setPayload _ hf hsize ih =>
    exact ⟨hf.length.trans ih.length, (hf.drop _).trans ih.rest, by simpa using hsize, .inl rfl,
      hf.outdataWritten.trans ih.outdataWritten, hf.payloadWritten.trans ih.payloadWritten,
      hf.calculatedDataDigest.trans ih.calculatedDataDigest,
      hf.outdataDigestComputed.trans ih.outdataDigestComputed⟩
  | @addData p q data bytes w w' a _ hlen hc hp hadd hq ih =>
    have hbig : 48 ≤ p.outdata.length := by
      rcases iscsiHeaderSize_cases c.headerDigest with ⟨_, hs⟩ | ⟨_, hs⟩ <;>
      · have := ih.length
        omega
    have hq' : q = ({ p with outdata := p.outdata ++ bytes } : Pdu).setDataSegmentLength
        ((p.outdata ++ bytes).length - iscsiHeaderSize c.headerDigest) := by
      unfold iscsiPduAddData at hadd
      split at hadd
      · cases hadd
      rw [World.malloc_eq] at hadd
      simp only at hadd
      obtain ⟨p', hp', hadd⟩ := Outcome.bind_eq_ok.1 hadd
      have : p' = p := Option.some.inj ((World.deref_eq_ok.1 hp').symm.trans hp)
      subst this
      split at hadd
      · cases hadd
      obtain ⟨_, rfl⟩ := Prod.mk.inj (Except.ok.inj hadd)
      rw [World.setPdu_pdus, Function.update_self, Option.some.injEq] at hq
      rw [← hq, ← hc]
    have hnum : (p.outdata ++ bytes).length - iscsiHeaderSize c.headerDigest =
        (data ++ bytes).length := by
      rw [List.length_append, List.length_append, ih.length]
      omega
    rw [hnum] at hq'
    have hfill : ({ p with outdata := p.outdata ++ bytes } : Pdu).FilledAs q := by
      rw [hq']
      exact .setField (by decide) _
    refine ⟨?_, ?_, ?_, .inr ?_, hfill.outdataWritten.trans ih.outdataWritten,
      hfill.payloadWritten.trans ih.payloadWritten,
      hfill.calculatedDataDigest.trans ih.calculatedDataDigest,
      hfill.outdataDigestComputed.trans ih.outdataDigestComputed⟩
    · rw [hfill.length, List.length_append, ih.length, List.length_append, Nat.add_assoc]
    · rw [hfill.drop, List.drop_append_of_le_length (by rw [ih.length]; omega), ih.rest]
    · have hzero : q.payloadLen = 0 := by rw [hq']; exact hlen
      rw [hzero, hq']
      exact scsiGetUint32_set (by rw [List.length_append]; omega)
    · rw [hq']
      exact hlen

/-- The header and the payload of a DATA-OUT are filled in. -/
theorem Pdu.filledAs_asDataOut (p cmd : Pdu) (ttt offset len : UInt32) (last : Bool) :
    p.FilledAs (p.asDataOut cmd ttt offset len last) where
  length := asDataOut_length ..
  rest := by
    simp (disch := decide) only [Pdu.asDataOut, Pdu.setPduflags, Pdu.setLun, Pdu.setTtt,
      Pdu.setDatasn, Pdu.setBufferoffset, Pdu.setDataSegmentLength, Pdu.setByte, Pdu.setField,
      scsiSetUint32, scsiSetUint16, List.drop_set_of_lt]
  outdataWritten := rfl
  payloadWritten := rfl
  calculatedDataDigest := rfl
  outdataDigestComputed := rfl

/-- **The DATA-OUTs of a command are PDUs that were built**, with their payload. -/
theorem Pdu.Built.asDataOut {c : Context} {p : Pdu} (h : p.Built c []) (cmd : Pdu)
    (ttt offset len : UInt32) (last : Bool) : (p.asDataOut cmd ttt offset len last).Built c [] := by
  refine .setPayload h (filledAs_asDataOut p cmd ttt offset len last) ?_
  have hbig : 48 ≤ p.outdata.length := by
    rcases iscsiHeaderSize_cases c.headerDigest with ⟨_, hs⟩ | ⟨_, hs⟩ <;>
    · have := h.holds.length
      omega
  rw [(p.asDataOut_fields cmd ttt offset len last hbig).2.2.2.1]
  exact UInt32.ofNat_toNat.symm

/-! ## The PDU that is taken -/

theorem length_wireHeader {header : List UInt8} (m : DigestMode)
    (h : header.length = iscsiRawHeaderSize) :
    (wireHeader m header).length = iscsiHeaderSize m := by
  unfold wireHeader iscsiHeaderSize
  rw [List.length_append, h]
  split <;> rfl

/-- The length field of a header that is the start of a buffer. -/
theorem scsiGetUint32_take {buf : List UInt8} {n i : Nat} (h : i + 4 ≤ n) :
    scsiGetUint32 (buf.take n) i = scsiGetUint32 buf i := by
  have hbyte : ∀ k < 4, byte (buf.take n) (i + k) = byte buf (i + k) := fun k hk => by
    simp only [byte, List.getD_eq_getElem?_getD]
    rw [List.getElem?_take_of_lt (by omega)]
  have h0 := hbyte 0 (by omega)
  rw [Nat.add_zero] at h0
  simp only [scsiGetUint32, h0, hbyte 1 (by omega), hbyte 2 (by omega), hbyte 3 (by omega)]

/-- **A PDU that holds its data goes out with its header, the digest of that, and the data that
are in `outdata`**: the header is the one that was built, with the ExpStatSN of the moment. -/
theorem Pdu.Holds.taken {c : Context} {p q : Pdu} {data : List UInt8} (h : p.Holds c data)
    (ht : p.TakenAs c q) : ∃ expstatsn,
      q.outdata = wireHeader c.headerDigest
        ((p.setExpstatsn expstatsn).outdata.take iscsiRawHeaderSize) ++ data := by
  obtain ⟨e, he⟩ : ∃ e, p.stamped c = p.setExpstatsn e := ⟨_, rfl⟩
  refine ⟨e, ?_⟩
  have hfill : p.FilledAs (p.setExpstatsn e) := .setField (by decide) e
  have hrest : (p.setExpstatsn e).outdata.drop (iscsiHeaderSize c.headerDigest) = data :=
    (hfill.drop _).trans h.rest
  unfold TakenAs Pdu.digested at ht
  rw [he] at ht
  split at ht
  · rename_i hnone
    obtain rfl := Option.some.inj ht
    rw [hnone] at hrest ⊢
    rw [wireHeader, if_pos rfl, List.append_nil]
    conv_lhs => rw [← List.take_append_drop iscsiRawHeaderSize (p.setExpstatsn e).outdata]
    exact congrArg _ hrest
  · rename_i hsome
    unfold iscsiPduUpdateHeaderdigest at ht
    split at ht
    · cases ht
    obtain rfl := Option.some.inj ht
    rw [wireHeader, if_neg hsome]
    rw [iscsiHeaderSize, if_neg hsome] at hrest
    simp only [hrest]

/-- The padding of the whole buffer is that of the data after the header. -/
theorem aligned_eq {q : Pdu} {head data : List UInt8} (hq : q.outdata = head ++ data)
    (hhead : head.length % 4 = 0) (hlen : head.length + data.length + 3 < 2 ^ 32) :
    q.aligned = head ++ padded data := by
  rw [Pdu.aligned, hq, List.append_assoc, padded, List.length_append, pad4_eq (by omega)]
  congr 3
  omega

theorem length_aligned {p : Pdu} (h : p.outdata.length + 3 < 2 ^ 32) :
    p.aligned.length = pad4 p.outdata.length := by
  rw [Pdu.aligned, List.length_append, List.length_replicate, pad4_eq h]
  omega

/-- Padding what has been padded adds nothing. -/
theorem aligned_aligned {p : Pdu} (h : p.outdata.length + 6 < 2 ^ 32) :
    ({ p with outdata := p.aligned } : Pdu).aligned = p.aligned := by
  rw [Pdu.aligned]
  simp only [length_aligned (p := p) (by omega)]
  rw [pad4_eq (n := pad4 _) (by rw [pad4_eq (by omega)]; omega), pad4_eq (n := p.outdata.length)
    (by omega)]
  rw [show ((p.outdata.length + 3) / 4 * 4 + 3) / 4 * 4 - (p.outdata.length + 3) / 4 * 4 = 0 by
    omega]
  simp

theorem length_padded {data : List UInt8} (h : data.length + 3 < 2 ^ 32) :
    (padded data).length = pad4 data.length := by
  rw [padded_eq h, List.length_append, List.length_replicate, pad4_eq h]
  omega

end Libiscsi
