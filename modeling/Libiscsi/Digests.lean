import Libiscsi.Crc32cCorrect
import Libiscsi.ReadSocketCorrect
import Libiscsi.WireCorrect

/-!
# What the digests find

`iscsi_process_pdu` (`lib/pdu.c`) verifies the header digest and the data digest of what
`iscsi_read_from_socket` has read. PDUs in the format that `iscsi_write_to_socket` writes come
through whatever the cuts of the stream (`readCalls_wire`). A burst of up to 32 wrong bits in a
header with its digest, or in a data segment with its padding and its digest, is found, and nothing
that follows it is handed on (`readCalls_damaged`).
-/

namespace Libiscsi

open Framing

/-! ## Codewords -/

/-- The bits of bytes in the order of the digest. -/
def bitsOf (l : List UInt8) : List Bool := l.flatMap fun b => Crc.bits b.toBitVec

theorem bitsOf_append (l l' : List UInt8) : bitsOf (l ++ l') = bitsOf l ++ bitsOf l' :=
  List.flatMap_append

theorem length_bitsOf (l : List UInt8) : (bitsOf l).length = 8 * l.length := by
  induction l with
  | nil => rfl
  | cons b l ih =>
    change (Crc.bits b.toBitVec ++ bitsOf l).length = _
    rw [List.length_append, ih, Crc.bits, List.length_map, List.length_range, List.length_cons]
    omega

/-- The bits determine the bytes. -/
theorem bitsOf_injective : Function.Injective bitsOf := by
  intro l l' h
  induction l generalizing l' with
  | nil =>
    have hlength := congrArg List.length h
    rw [length_bitsOf, length_bitsOf, List.length_nil] at hlength
    exact (List.length_eq_zero_iff.1 (by omega)).symm
  | cons b l ih =>
    cases l' with
    | nil =>
      have hlength := congrArg List.length h
      rw [length_bitsOf, length_bitsOf, List.length_nil, List.length_cons] at hlength
      omega
    | cons b' l' =>
      have hsize : ∀ v : BitVec 8, (Crc.bits v).length = 8 := fun v => by
        rw [Crc.bits, List.length_map, List.length_range]
      obtain ⟨hbits, hrest⟩ := List.append_inj h ((hsize _).trans (hsize _).symm)
      have hbyte : b.toBitVec = b'.toBitVec := by
        refine BitVec.eq_of_getLsbD_eq fun i hi => ?_
        exact List.map_inj_left.1 hbits i (List.mem_range.2 hi)
      rw [UInt8.toBitVec_inj.1 hbyte, ih hrest]

/-- The bits of the four bytes of a digest are those of the number. -/
theorem bitsOf_digest {d : List UInt8} (h : d.length = 4) :
    bitsOf d = Crc.bits (digestOfBytes d).toBitVec := by
  match d, h with
  | [a, b, c, e], _ =>
    simp [bitsOf, Crc.bits, digestOfBytes, List.range_succ]

/-- After a message and its digest the register is always the same. -/
theorem feed_codeword {l d : List UInt8} (hd : d.length = 4)
    (h : crc32cChainDone (crc32cChain 0xffffffff l) = digestOfBytes d) :
    Crc.feed crc32cPolynomial.reverse 0xFFFFFFFF#32 (bitsOf (l ++ d)) =
      Crc.shifts crc32cPolynomial.reverse 32 0xFFFFFFFF#32 := by
  have hnumber : (crc32cChain 0xffffffff l).toBitVec ^^^ (digestOfBytes d).toBitVec =
      0xFFFFFFFF#32 := by
    rw [← h, crc32cChainDone, UInt32.toBitVec_xor, ← BitVec.xor_assoc, BitVec.xor_self,
      BitVec.zero_xor]
    rfl
  have hl : Crc.feed crc32cPolynomial.reverse 0xFFFFFFFF#32 (bitsOf l) =
      (crc32cChain 0xffffffff l).toBitVec := (crc32cChain_eq 0xffffffff l).symm
  rw [bitsOf_append, Crc.feed_append, hl, bitsOf_digest hd, Crc.feed_bits _ _ le_rfl,
    BitVec.setWidth_eq, hnumber]

/-- Two byte sequences that differ in a burst of wrong bits. -/
def ByteBurst (l l' : List UInt8) : Prop := Crc.Burst 32 (bitsOf l) (bitsOf l')

theorem ByteBurst.length_eq {l l' : List UInt8} (h : ByteBurst l l') : l'.length = l.length := by
  obtain ⟨before, burst, burst', after, hl, hl', hlength, -⟩ := h
  have h₁ := congrArg List.length hl
  have h₂ := congrArg List.length hl'
  simp only [length_bitsOf, List.length_append] at h₁ h₂
  omega

/-- **Two messages with right digests do not differ in a burst.** -/
theorem ByteBurst.eq {l l' d d' : List UInt8} (hburst : ByteBurst (l ++ d) (l' ++ d'))
    (hd : d.length = 4) (hd' : d'.length = 4)
    (h : crc32cChainDone (crc32cChain 0xffffffff l) = digestOfBytes d)
    (h' : crc32cChainDone (crc32cChain 0xffffffff l') = digestOfBytes d') :
    l ++ d = l' ++ d' :=
  bitsOf_injective (Crc.Burst.eq_of_feed (by decide +kernel) hburst
    ((feed_codeword hd h).trans (feed_codeword hd' h').symm))

/-! ## Verification -/

/-- A digest that is sent is the one that is received. -/
theorem digestOfBytes_digestBytes (crc : UInt32) : digestOfBytes (digestBytes crc) = crc := by
  have hbits : Crc.bits (digestOfBytes (digestBytes crc)).toBitVec = Crc.bits crc.toBitVec := by
    rw [← bitsOf_digest rfl]
    simp [bitsOf, Crc.bits, digestBytes, List.range_succ]
  refine UInt32.toBitVec_inj.1 (BitVec.eq_of_getLsbD_eq fun i hi => ?_)
  exact List.map_inj_left.1 hbits i (List.mem_range.2 hi)

namespace ReadConfig
variable (cfg : ReadConfig) (p : Incoming)

/-- The header is the one that its digest belongs to. -/
def headerVerified : Bool :=
  cfg.headerDigest = .none ∨
    crc32c (p.hdr.take iscsiRawHeaderSize) = digestOfBytes (p.hdr.drop iscsiRawHeaderSize)

/-- The data are those that their digest belongs to, if there are any. -/
def dataVerified : Bool :=
  cfg.dataDigest = .none ∨ iscsiGetPduDataSize p.hdr = 0 ∨
    crc32cChainDone p.calculatedDataDigest = digestOfBytes p.digest

/-- `iscsi_process_pdu` up to the numbers: it returns -1 for a wrong digest and for additional
header segments. -/
def verified : Bool := cfg.headerVerified p && cfg.dataVerified p && byte p.hdr 4 = 0

end ReadConfig

/-! ## Messages -/

/-- A PDU to be sent: its header without the digest, and its data. -/
structure Message where
  header : List UInt8
  data : List UInt8

namespace Message
variable {cfg : ReadConfig} {m : Message}

/-- The header gives the length of the data. -/
structure Fits (m : Message) : Prop where
  header : m.header.length = iscsiRawHeaderSize
  size : scsiGetUint32 m.header 4 = UInt32.ofNat m.data.length
  small : m.data.length < 2 ^ 24

/-- The bytes that `iscsi_write_to_socket` sends for it. -/
def wire (cfg : ReadConfig) (m : Message) : List UInt8 :=
  Libiscsi.wire cfg.headerDigest cfg.dataDigest m.header m.data

/-- What is to be read of it. -/
def incoming (cfg : ReadConfig) (m : Message) : Incoming where
  hdr := wireHeader cfg.headerDigest m.header
  data := padded m.data
  digest := wireDigest cfg.dataDigest m.data
  calculatedDataDigest :=
    if cfg.doDataDigest then crc32cChain 0xffffffff (padded m.data) else 0xffffffff

theorem wire_incoming (cfg : ReadConfig) (m : Message) : (m.incoming cfg).wire = m.wire cfg := rfl

namespace Fits

/-- The header on the wire begins with the header. -/
theorem take_hdr (h : m.Fits) :
    (wireHeader cfg.headerDigest m.header).take iscsiRawHeaderSize = m.header := by
  rw [wireHeader, ← h.header, List.take_left]

theorem sizeField (h : m.Fits) :
    scsiGetUint32 (m.incoming cfg).hdr 4 = UInt32.ofNat m.data.length := by
  rw [← h.size, ← @take_hdr cfg m h, scsiGetUint32_take (by decide)]
  rfl

theorem toNat_sizeField (h : m.Fits) : (scsiGetUint32 (m.incoming cfg).hdr 4).toNat =
    m.data.length := by
  have hsmall := h.small
  rw [h.sizeField, UInt32.toNat_ofNat']
  exact Nat.mod_eq_of_lt (by omega)

theorem dataSize (h : m.Fits) :
    iscsiGetPduDataSize (m.incoming cfg).hdr = m.data.length := by
  have hsmall := h.small
  rw [iscsiGetPduDataSize_eq rfl (by rw [h.toNat_sizeField]; omega), h.toNat_sizeField]

theorem paddedSize_eq (h : m.Fits) :
    paddedSize (m.incoming cfg).hdr = (padded m.data).length := by
  have hsmall := h.small
  unfold paddedSize iscsiGetPduPaddingSize
  rw [h.dataSize, length_padded (by omega), pad4_eq (by omega)]
  omega

theorem paddedSize_eq_zero (h : m.Fits) :
    paddedSize (m.incoming cfg).hdr = 0 ↔ m.data = [] := by
  rw [h.paddedSize_eq]
  constructor
  · intro hzero
    unfold padded at hzero
    rw [List.length_append] at hzero
    exact List.length_eq_zero_iff.1 (by omega)
  · intro hnil
    rw [hnil]
    rfl

/-- What is read of it is a whole PDU. -/
theorem whole (h : m.Fits) : cfg.Whole (m.incoming cfg) := by
  have hhdr : (m.incoming cfg).hdr.length = cfg.hdrSize := length_wireHeader _ h.header
  have hdata : (m.incoming cfg).data.length = paddedSize (m.incoming cfg).hdr :=
    h.paddedSize_eq.symm
  have hdigest : (m.incoming cfg).digest.length = cfg.digestSize (m.incoming cfg).hdr := by
    change (wireDigest cfg.dataDigest m.data).length = _
    unfold wireDigest ReadConfig.digestSize
    by_cases hnone : cfg.dataDigest = .none
    · have hdo : cfg.doDataDigest = false := decide_eq_false fun h' => h' hnone
      rw [if_pos (.inl hnone), if_neg fun h' => Bool.false_ne_true (hdo.symm.trans h'.2)]
      rfl
    · by_cases hnil : m.data = []
      · rw [if_pos (.inr hnil), if_neg fun h' => h'.1 (h.paddedSize_eq_zero.2 hnil)]
        rfl
      · rw [if_neg fun h' => h'.elim hnone hnil,
          if_pos ⟨mt h.paddedSize_eq_zero.1 hnil, decide_eq_true hnone⟩]
        rfl
  exact {
    hdr := hhdr.le
    noData := fun hlt => absurd hlt hhdr.ge.not_gt
    data := hdata.le
    noDigest := fun hlt => absurd hlt hdata.ge.not_gt
    digest := hdigest.le
    calculated := rfl
    hdr_eq := hhdr
    data_eq := hdata
    digest_eq := hdigest }

/-- **What is sent is verified.** -/
theorem verified (h : m.Fits) : cfg.verified (m.incoming cfg) = true := by
  have hheader : cfg.headerVerified (m.incoming cfg) = true := by
    refine decide_eq_true ?_
    by_cases hnone : cfg.headerDigest = .none
    · exact .inl hnone
    · have hdrop : (wireHeader cfg.headerDigest m.header).drop iscsiRawHeaderSize =
          digestBytes (crc32c m.header) := by
        rw [wireHeader, if_neg hnone, ← h.header, List.drop_left]
      refine .inr ?_
      change crc32c ((wireHeader _ _).take _) = digestOfBytes ((wireHeader _ _).drop _)
      rw [h.take_hdr, hdrop, digestOfBytes_digestBytes]
  have hdata : cfg.dataVerified (m.incoming cfg) = true := by
    refine decide_eq_true ?_
    by_cases hnone : cfg.dataDigest = .none
    · exact .inl hnone
    by_cases hnil : m.data = []
    · refine .inr (.inl ?_)
      rw [h.dataSize, hnil]
      rfl
    · refine .inr (.inr ?_)
      have hdo : cfg.doDataDigest = true := decide_eq_true hnone
      change crc32cChainDone (if cfg.doDataDigest then _ else _) =
        digestOfBytes (wireDigest cfg.dataDigest m.data)
      rw [if_pos hdo, wireDigest, if_neg fun h' => h'.elim hnone hnil,
        digestOfBytes_digestBytes]
      rfl
  have hahs : byte (m.incoming cfg).hdr 4 = 0 := by
    have hsmall := h.small
    have hnat := @toNat_sizeField cfg m h
    rw [toNat_scsiGetUint32] at hnat
    refine UInt8.toNat_inj.1 ?_
    change _ = 0
    omega
  unfold ReadConfig.verified
  rw [hheader, hdata, hahs]
  rfl

end Fits

end Message

/-! ## Streams of messages -/

section
variable {cfg : ReadConfig} {calls : List (List Arrival)}

/-- The PDUs that a run hands on are the first ones of the stream, and the others begin what follows
them. -/
theorem delivered_prefix {gs : List Incoming} {tail : List UInt8} (hgs : ∀ p ∈ gs, cfg.Whole p)
    (hstream : streamOf calls.flatten = gs.flatMap Incoming.wire ++ tail) :
    (cfg.readCalls {} calls).2.delivered <+: gs ∨
      ∃ p rest, (cfg.readCalls {} calls).2.delivered = gs ++ p :: rest ∧
        (p :: rest).flatMap Incoming.wire <+: tail := by
  obtain ⟨hwhole, n, hcontent, -⟩ := readCalls_stream cfg calls
  refine frames_prefix (ReadConfig.prefixFree_wire cfg) hwhole hgs ?_
  have hcalls : streamOf calls.flatten =
      streamOf (calls.take n).flatten ++ streamOf (calls.drop n).flatten := by
    rw [← streamOf_append, ← List.flatten_append, List.take_append_drop]
  rw [← hstream, hcalls, ← hcontent]
  unfold Reader.content
  rw [List.append_assoc]
  exact List.prefix_append _ _

/-- A whole PDU has bytes. -/
theorem wire_ne_nil {p : Incoming} (h : cfg.Whole p) : p.wire ≠ [] := by
  intro hnil
  have hlength := congrArg List.length hnil
  simp only [Incoming.wire, List.length_append, List.length_nil] at hlength
  have hhdr := h.hdr_eq
  have hpos := @ReadConfig.hdrSize_pos cfg
  omega

theorem flatMap_incoming (cfg : ReadConfig) (messages : List Message) :
    (messages.map (Message.incoming cfg)).flatMap Incoming.wire =
      messages.flatMap (Message.wire cfg) :=
  List.flatMap_map _ _ _

theorem whole_messages {messages : List Message} (h : ∀ m ∈ messages, m.Fits) :
    ∀ p ∈ messages.map (Message.incoming cfg), cfg.Whole p := by
  intro p hp
  obtain ⟨m, hm, rfl⟩ := List.mem_map.1 hp
  exact (h m hm).whole

/-- **What is sent is what is read.** In a run over the bytes of messages, whatever its cuts, the
PDUs that are handed on are the first of the messages, with the padding of their data and with right
digests; they are all of them once everything has been read. -/
theorem readCalls_wire {messages : List Message} (hfits : ∀ m ∈ messages, m.Fits)
    (hstream : streamOf calls.flatten = messages.flatMap (Message.wire cfg)) :
    (cfg.readCalls {} calls).2.delivered <+: messages.map (Message.incoming cfg) ∧
      (∀ p ∈ (cfg.readCalls {} calls).2.delivered, cfg.verified p = true) ∧
      ((cfg.readCalls {} calls).1 = true → streamOf (cfg.readCalls {} calls).2.socket = [] →
        (cfg.readCalls {} calls).2.delivered = messages.map (Message.incoming cfg)) := by
  have hwhole := @whole_messages cfg _ hfits
  rw [← flatMap_incoming] at hstream
  have hbegin : (cfg.readCalls {} calls).2.delivered <+: messages.map (Message.incoming cfg) := by
    have hwire : streamOf calls.flatten =
        (messages.map (Message.incoming cfg)).flatMap Incoming.wire ++ [] := by
      rw [List.append_nil, hstream]
    rcases delivered_prefix hwhole hwire with h | ⟨p, rest, hdelivered, hnil⟩
    · exact h
    · have hp : cfg.Whole p :=
        (readCalls_stream cfg calls).1 p (hdelivered ▸ List.mem_append_right _ List.mem_cons_self)
      rw [List.prefix_nil, List.flatMap_cons, List.append_eq_nil_iff] at hnil
      exact absurd hnil.1 (wire_ne_nil hp)
  refine ⟨hbegin, fun p hp => ?_, fun hok hall => ?_⟩
  · obtain ⟨m, hm, rfl⟩ := List.mem_map.1 (hbegin.subset hp)
    exact (hfits m hm).verified
  · obtain ⟨hi, n, hcontent, hn⟩ := (@Reader.inv_new cfg []).readCalls calls
    rw [List.take_of_length_le (hn hok), hstream] at hcontent
    change Reader.content _ = _ at hcontent
    unfold Reader.content at hcontent
    rw [hall, List.append_nil] at hcontent
    refine (frames_unique (ReadConfig.prefixFree_wire cfg) hi.whole hwhole
      (ReadConfig.pending_wire hi.wellRead hi.not_whole)
      (ReadConfig.pending_wire ReadConfig.wellRead_new ReadConfig.not_whole_new) ?_).1
    rw [hcontent]
    exact (List.append_nil _).symm

/-! ## Damaged messages -/

/-- The message at the beginning of a stream has a burst of wrong bits, in its header with the
digest or in its data with padding and digest. -/
inductive Damaged (cfg : ReadConfig) (m : Message) : List UInt8 → Prop where
  | header {hdr rest : List UInt8} (hdigest : cfg.headerDigest ≠ .none)
      (hburst : ByteBurst (wireHeader cfg.headerDigest m.header) hdr)
      (hne : wireHeader cfg.headerDigest m.header ≠ hdr) : Damaged cfg m (hdr ++ rest)
  | data {body rest : List UInt8} (hdigest : cfg.dataDigest ≠ .none) (hdata : m.data ≠ [])
      (hburst : ByteBurst (padded m.data ++ wireDigest cfg.dataDigest m.data) body)
      (hne : padded m.data ++ wireDigest cfg.dataDigest m.data ≠ body) :
      Damaged cfg m (wireHeader cfg.headerDigest m.header ++ (body ++ rest))

/-- What begins a list and is as long as another beginning of it. -/
theorem eq_of_prefix_append {l l' rest : List UInt8} (h : l <+: l' ++ rest)
    (hlength : l.length = l'.length) : l = l' := by
  obtain ⟨more, hmore⟩ := h
  exact (List.append_inj hmore hlength).1

theorem headerVerified_eq {p : Incoming} (h : cfg.headerVerified p = true)
    (hdigest : cfg.headerDigest ≠ .none) :
    crc32c (p.hdr.take iscsiRawHeaderSize) = digestOfBytes (p.hdr.drop iscsiRawHeaderSize) :=
  (of_decide_eq_true h).resolve_left hdigest

/-- Two whole PDUs with right header digests do not differ in a burst in their headers. -/
theorem hdr_eq_of_burst {p q : Incoming} (hp : cfg.Whole p) (hq : cfg.Whole q)
    (hdigest : cfg.headerDigest ≠ .none) (hvp : cfg.headerVerified p = true)
    (hvq : cfg.headerVerified q = true) (hburst : ByteBurst p.hdr q.hdr) : p.hdr = q.hdr := by
  have hsize : cfg.hdrSize = iscsiRawHeaderSize + 4 := by
    unfold ReadConfig.hdrSize iscsiHeaderSize
    rw [if_neg hdigest]
    rfl
  have hdrop : ∀ {r : Incoming}, cfg.Whole r → (r.hdr.drop iscsiRawHeaderSize).length = 4 := by
    intro r hr
    rw [List.length_drop, hr.hdr_eq, hsize, Nat.add_sub_cancel_left]
  rw [← List.take_append_drop iscsiRawHeaderSize p.hdr,
    ← List.take_append_drop iscsiRawHeaderSize q.hdr] at hburst ⊢
  exact hburst.eq (hdrop hp) (hdrop hq) (headerVerified_eq hvp hdigest)
    (headerVerified_eq hvq hdigest)

/-- Two whole PDUs with the same header and right data digests do not differ in a burst in their
data. -/
theorem data_eq_of_burst {p q : Incoming} (hp : cfg.Whole p) (hq : cfg.Whole q)
    (hdigest : cfg.dataDigest ≠ .none) (hhdr : q.hdr = p.hdr) (hsize : paddedSize p.hdr ≠ 0)
    (hvp : cfg.dataVerified p = true) (hvq : cfg.dataVerified q = true)
    (hburst : ByteBurst (p.data ++ p.digest) (q.data ++ q.digest)) :
    p.data ++ p.digest = q.data ++ q.digest := by
  have hdo : cfg.doDataDigest = true := decide_eq_true hdigest
  have hfour : cfg.digestSize p.hdr = 4 := if_pos ⟨hsize, hdo⟩
  have hne : iscsiGetPduDataSize p.hdr ≠ 0 := by
    intro hzero
    refine hsize ?_
    unfold paddedSize iscsiGetPduPaddingSize
    rw [hzero]
    rfl
  have hvalue : ∀ {r : Incoming}, cfg.Whole r → r.hdr = p.hdr → cfg.dataVerified r = true →
      crc32cChainDone (crc32cChain 0xffffffff r.data) = digestOfBytes r.digest := by
    intro r hr hrhdr hvr
    have hcalc := hr.calculated
    rw [if_pos hdo] at hcalc
    rw [← hcalc]
    refine ((of_decide_eq_true hvr).resolve_left hdigest).resolve_left ?_
    rw [hrhdr]
    exact hne
  refine hburst.eq ?_ ?_ (hvalue hp rfl hvp) (hvalue hq hhdr hvq)
  · rw [hp.digest_eq, hfour]
  · rw [hq.digest_eq, hhdr, hfour]

/-- **A burst is found.** -/
theorem Damaged.not_verified {m : Message} {tail : List UInt8} (h : Damaged cfg m tail)
    (hm : m.Fits) {p : Incoming} (hp : cfg.Whole p) (hwire : p.wire <+: tail) :
    cfg.verified p = false := by
  have hwhole : cfg.Whole (m.incoming cfg) := hm.whole
  have hverified : cfg.verified (m.incoming cfg) = true := hm.verified
  unfold ReadConfig.verified at hverified
  simp only [Bool.and_eq_true] at hverified
  by_contra htrue
  have hvp := eq_true_of_ne_false htrue
  unfold ReadConfig.verified at hvp
  simp only [Bool.and_eq_true] at hvp
  have hhdr : p.hdr <+: tail := by
    refine List.IsPrefix.trans ?_ hwire
    unfold Incoming.wire
    rw [List.append_assoc]
    exact List.prefix_append _ _
  cases h with
  | @header hdr rest hdigest hburst hne =>
    have hlength : p.hdr.length = hdr.length := by
      rw [hburst.length_eq, hp.hdr_eq, ← hwhole.hdr_eq]
      rfl
    obtain rfl := eq_of_prefix_append hhdr hlength
    exact hne (hdr_eq_of_burst hwhole hp hdigest hverified.1.1 hvp.1.1 hburst)
  | @data body rest hdigest hdata hburst hne =>
    have hsame : p.hdr = (m.incoming cfg).hdr :=
      eq_of_prefix_append hhdr (hp.hdr_eq.trans hwhole.hdr_eq.symm)
    have hbody : p.data ++ p.digest = body := by
      have hrest : p.data ++ p.digest <+: body ++ rest := by
        unfold Incoming.wire at hwire
        rw [List.append_assoc, hsame] at hwire
        exact (List.prefix_append_right_inj _).1 hwire
      refine eq_of_prefix_append hrest ?_
      rw [hburst.length_eq, List.length_append, hp.data_eq, hp.digest_eq, hsame, ← hwhole.data_eq,
        ← hwhole.digest_eq, List.length_append]
      rfl
    subst hbody
    refine hne (data_eq_of_burst hwhole hp hdigest hsame ?_ hverified.1.2 hvp.1.2 hburst)
    exact mt hm.paddedSize_eq_zero.1 hdata

/-! ## The first PDU that is refused -/

/-- `iscsi_process_pdu` accepted the PDUs one after the other. -/
def Accepted (cfg : ReadConfig) (l : List Incoming) : Prop :=
  ∀ l' p, l' ++ [p] <+: l → cfg.handle (l' ++ [p]) ≠ none

theorem accepted_nil : Accepted cfg [] := by
  intro l' p h
  simp at h

theorem Accepted.concat {l : List Incoming} {p : Incoming} (h : Accepted cfg l)
    (hp : cfg.handle (l ++ [p]) ≠ none) : Accepted cfg (l ++ [p]) := by
  intro l' q hbegin
  rcases List.prefix_concat_iff.1 hbegin with heq | hbegin
  · obtain ⟨rfl, hq⟩ := List.append_inj' heq rfl
    obtain rfl := (List.cons.inj hq).1
    exact hp
  · exact h l' q hbegin

theorem Accepted.dropLast {l : List Incoming} (h : Accepted cfg l) : Accepted cfg l.dropLast :=
  fun l' p hbegin => h l' p (hbegin.trans (List.dropLast_prefix l))

/-- What a call leaves behind: all PDUs were accepted but the last, and that one too if the call
returns 0. -/
def StopsAtRefused (cfg : ReadConfig) (r : Bool × Reader) : Prop :=
  (r.1 = true → Accepted cfg r.2.delivered) ∧ Accepted cfg r.2.delivered.dropLast

theorem readLoop_stopsAtRefused {fuel : Nat} {s : Reader} (h : Accepted cfg s.delivered) :
    StopsAtRefused cfg (cfg.readLoop fuel s) := by
  induction fuel generalizing s with
  | zero => exact ⟨fun hfalse => (by cases hfalse), h.dropLast⟩
  | succ fuel ih =>
    unfold ReadConfig.readLoop
    cases cfg.readTurn s.incoming s.socket with
    | error e => exact ⟨fun _ => h, h.dropLast⟩
    | ok q =>
      obtain ⟨p, socket⟩ := q
      simp only
      cases hp : cfg.handle (s.delivered ++ [p]) with
      | none =>
        refine ⟨fun hfalse => (by cases hfalse), ?_⟩
        rw [List.dropLast_concat]
        exact h
      | some again =>
        have hconcat : Accepted cfg (s.delivered ++ [p]) :=
          h.concat fun hnone => (by rw [hp] at hnone; cases hnone)
        cases again with
        | false => exact ⟨fun _ => hconcat, hconcat.dropLast⟩
        | true => exact ih hconcat

theorem readCalls_stopsAtRefused {s : Reader} (h : Accepted cfg s.delivered) :
    StopsAtRefused cfg (cfg.readCalls s calls) := by
  induction calls generalizing s with
  | nil => exact ⟨fun _ => h, h.dropLast⟩
  | cons arrivals calls ih =>
    have hcall : StopsAtRefused cfg (cfg.iscsiReadFromSocket s arrivals) := by
      have hs : Accepted cfg { s with socket := s.socket ++ arrivals }.delivered := h
      exact readLoop_stopsAtRefused hs
    unfold ReadConfig.readCalls
    rcases heq : cfg.iscsiReadFromSocket s arrivals with ⟨_ | _, s'⟩
    · rw [heq] at hcall
      exact hcall
    · rw [heq] at hcall
      exact ih (hcall.1 rfl)

/-- **No damaged PDU gets through.** Where a burst of up to 32 wrong bits is in the header with its
digest, or in the data with their digest, of one of the messages, the PDUs that are handed on are
messages before it, or all of these and then the damaged one, at which the run fails. -/
theorem readCalls_damaged {before : List Message} {m : Message} {tail : List UInt8}
    (hbefore : ∀ m ∈ before, m.Fits) (hm : m.Fits) (hdamaged : Damaged cfg m tail)
    (hreject : ∀ l p, cfg.verified p = false → cfg.handle (l ++ [p]) = none)
    (hstream : streamOf calls.flatten = before.flatMap (Message.wire cfg) ++ tail) :
    (cfg.readCalls {} calls).2.delivered <+: before.map (Message.incoming cfg) ∨
      ∃ p, (cfg.readCalls {} calls).2.delivered = before.map (Message.incoming cfg) ++ [p] ∧
        cfg.verified p = false ∧ (cfg.readCalls {} calls).1 = false := by
  rw [← flatMap_incoming] at hstream
  rcases delivered_prefix (whole_messages hbefore) hstream with
    h | ⟨p, rest, hdelivered, hbegin⟩
  · exact .inl h
  refine .inr ⟨p, ?_⟩
  have hp : cfg.Whole p :=
    (readCalls_stream cfg calls).1 p (hdelivered ▸ List.mem_append_right _ List.mem_cons_self)
  have hwire : p.wire <+: tail := by
    rw [List.flatMap_cons] at hbegin
    exact (List.prefix_append _ _).trans hbegin
  have hfalse := hdamaged.not_verified hm hp hwire
  have hnone := hreject (before.map (Message.incoming cfg)) p hfalse
  obtain ⟨hok, hlast⟩ := @readCalls_stopsAtRefused cfg calls {} accepted_nil
  rw [hdelivered] at hok hlast ⊢
  rcases List.eq_nil_or_concat rest with rfl | ⟨l, q, rfl⟩
  · refine ⟨rfl, hfalse, eq_false_of_ne_true fun htrue => ?_⟩
    exact hok htrue _ _ List.prefix_rfl hnone
  · refine absurd hnone (hlast _ _ ?_)
    rw [List.concat_eq_append, ← List.cons_append, ← List.append_assoc, List.dropLast_concat]
    exact ⟨l, by rw [List.append_assoc, List.singleton_append]⟩

end

/-! ## A NOP-In with five bytes -/

/-- A reader with both digests. -/
def digestConfig (handle : List Incoming → Option Bool) : ReadConfig where
  headerDigest := .crc32c
  dataDigest := .crc32c
  initiatorMaxRecvDataSegmentLength := 262144
  vectors := fun _ => .none
  handle

/-- It goes on as long as the digests are right. -/
def digestReader : ReadConfig :=
  digestConfig fun l => if l.all (digestConfig fun _ => none).verified then some true else none

/-- The header and the data of the NOP-In. -/
def nopIn : Message where
  header := [0x20, 0x80, 0, 0, 0, 0, 0, 5] ++ List.replicate 40 0
  data := [1, 2, 3, 4, 5]

theorem nopIn_fits : nopIn.Fits := ⟨rfl, by decide, by decide⟩

/-- It arrives in two pieces. -/
theorem readCalls_wire_nopIn :
    (digestReader.readCalls {} [restOf ((nopIn.wire digestReader).take 20),
      restOf ((nopIn.wire digestReader).drop 20)]).2.delivered <+:
        [nopIn.incoming digestReader] := by
  refine (readCalls_wire (List.forall_mem_singleton.2 nopIn_fits) ?_).1
  rw [List.flatten_cons, List.flatten_singleton, streamOf_append, streamOf_restOf, streamOf_restOf,
    List.take_append_drop, List.flatMap_singleton]

/-- Its header with a damaged opcode. -/
def damagedHeader : List UInt8 := 0x3f :: (wireHeader .crc32c nopIn.header).tail

theorem readCalls_damaged_nopIn :
    (digestReader.readCalls {} [restOf damagedHeader]).2.delivered <+: [] ∨
      ∃ p, (digestReader.readCalls {} [restOf damagedHeader]).2.delivered = [p] ∧
        digestReader.verified p = false ∧
        (digestReader.readCalls {} [restOf damagedHeader]).1 = false := by
  have hburst : ByteBurst (wireHeader .crc32c nopIn.header) damagedHeader :=
    ⟨[], Crc.bits 0x20#8, Crc.bits 0x3f#8, bitsOf (wireHeader .crc32c nopIn.header).tail, rfl, rfl,
      rfl, by decide⟩
  have hne : wireHeader .crc32c nopIn.header ≠ damagedHeader := fun heq => by
    have hfirst := congrArg List.head? heq
    revert hfirst
    decide
  have hdamaged : Damaged digestReader nopIn (damagedHeader ++ []) :=
    .header (fun h => (by cases h)) hburst hne
  refine readCalls_damaged (List.forall_mem_nil _) nopIn_fits hdamaged ?_ ?_
  · intro l p hp
    have hall : (l ++ [p]).all (digestConfig fun _ => none).verified = false := by
      rw [List.all_append, List.all_cons, List.all_nil, Bool.and_true]
      exact Bool.and_eq_false_iff.2 (.inr hp)
    exact if_neg (ne_true_of_eq_false hall)
  · rw [List.flatten_singleton, streamOf_restOf, List.append_nil]
    rfl

end Libiscsi
