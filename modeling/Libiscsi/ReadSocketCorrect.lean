import Libiscsi.ReadSocket

/-!
# Cuts do not matter

A reader is compared with the stream of bytes it reads. Nothing of the stream is lost, repeated or
moved (`readCalls_stream`), so that it determines the PDUs that are handed on, whatever the cuts are
(`readCalls_unique`). One cut is an exception: a call that finds the data segment read and its
digest not asks for no bytes, and takes the 0 that `recv` returns for the end of the stream
(`readCalls_iff`).
-/

namespace Libiscsi

open Framing

/-- The bytes of a PDU on the wire. -/
def Incoming.wire (p : Incoming) : List UInt8 := p.hdr ++ p.data ++ p.digest

/-! ## The socket -/

/-- The bytes that were received. -/
def Received.stream : Received → List UInt8
  | .bytes l => l
  | _ => []

theorem streamOf_append (l l' : List Arrival) : streamOf (l ++ l') = streamOf l ++ streamOf l' :=
  List.flatMap_append

theorem streamOf_restOf (l : List UInt8) : streamOf (restOf l) = l := by
  cases l with
  | nil => rfl
  | cons b l => exact List.append_nil _

/-- `recv` takes bytes from the beginning of the stream, no more than it is asked for. -/
theorem recv_stream (socket : List Arrival) (count : Nat) :
    streamOf socket = (recv socket count).1.stream ++ streamOf (recv socket count).2 ∧
      (recv socket count).1.stream.length ≤ count := by
  unfold recv
  by_cases hzero : count = 0
  · rw [if_pos hzero]
    exact ⟨rfl, Nat.zero_le _⟩
  rw [if_neg hzero]
  cases socket with
  | nil => exact ⟨rfl, Nat.zero_le _⟩
  | cons a socket =>
    cases a with
    | bytes b rest =>
      refine ⟨?_, List.length_take_le _ _⟩
      simp only [Received.stream]
      rw [streamOf_append, streamOf_restOf, ← List.append_assoc, List.take_append_drop]
      rfl
    | again => exact ⟨rfl, Nat.zero_le _⟩
    | closed => exact ⟨rfl, Nat.zero_le _⟩
    | failed => exact ⟨rfl, Nat.zero_le _⟩

/-- A connection that is neither closed nor broken. -/
def Open (socket : List Arrival) : Prop := ∀ a ∈ socket, a ≠ .closed ∧ a ≠ .failed

theorem open_restOf (l : List UInt8) : Open (restOf l) := by
  cases l with
  | nil => exact List.forall_mem_nil _
  | cons b l =>
    intro a ha
    obtain rfl := List.mem_singleton.1 ha
    exact ⟨fun h => (by cases h), fun h => (by cases h)⟩

theorem Open.append {l l' : List Arrival} (h : Open l) (h' : Open l') : Open (l ++ l') :=
  fun a ha => (List.mem_append.1 ha).elim (h a) (h' a)

/-- `recv` for some bytes returns some, or that there are none yet, as long as the connection is
open. -/
theorem Open.recv {socket : List Arrival} (h : Open socket) {count : Nat} (hpos : count ≠ 0) :
    ((recv socket count).1 = .again ∨
      ∃ bytes, (recv socket count).1 = .bytes bytes ∧ bytes ≠ []) ∧
      Open (recv socket count).2 := by
  unfold Libiscsi.recv
  rw [if_neg hpos]
  cases socket with
  | nil => exact ⟨.inl rfl, List.forall_mem_nil _⟩
  | cons a socket =>
    obtain ⟨ha, hrest⟩ := List.forall_mem_cons.1 h
    cases a with
    | bytes b rest =>
      refine ⟨.inr ⟨_, rfl, fun hnil => ?_⟩, (open_restOf _).append hrest⟩
      rcases List.take_eq_nil_iff.1 hnil with hzero | hnil
      · exact hpos hzero
      · cases hnil
    | again => exact ⟨.inl rfl, hrest⟩
    | closed => exact absurd rfl ha.1
    | failed => exact absurd rfl ha.2

/-! ## PDUs that are read in part -/

namespace ReadConfig
variable (cfg : ReadConfig) {p p' : Incoming} {socket socket' : List Arrival} {e : ReadExit}

/-- What has been read of a PDU is the beginning of it. -/
structure WellRead (p : Incoming) : Prop where
  hdr : p.hdr.length ≤ cfg.hdrSize
  noData : p.hdr.length < cfg.hdrSize → p.data = []
  data : p.data.length ≤ paddedSize p.hdr
  noDigest : p.data.length < paddedSize p.hdr → p.digest = []
  digest : p.digest.length ≤ cfg.digestSize p.hdr
  calculated : p.calculatedDataDigest =
    if cfg.doDataDigest then crc32cChain 0xffffffff p.data else 0xffffffff

/-- A PDU that is read to its end. -/
structure Whole (p : Incoming) : Prop extends cfg.WellRead p where
  hdr_eq : p.hdr.length = cfg.hdrSize
  data_eq : p.data.length = paddedSize p.hdr
  digest_eq : p.digest.length = cfg.digestSize p.hdr

/-- The data segment is read and its digest is not. -/
def Stuck (p : Incoming) : Prop :=
  p.hdr.length = cfg.hdrSize ∧ p.data.length = paddedSize p.hdr ∧
    p.digest.length < cfg.digestSize p.hdr

variable {cfg}

theorem hdrSize_pos : 0 < cfg.hdrSize := by
  unfold hdrSize iscsiHeaderSize iscsiRawHeaderSize
  omega

theorem paddedSize_nil : paddedSize [] = 0 := by decide

theorem digestSize_of_zero {hdr : List UInt8} (h : paddedSize hdr = 0) :
    cfg.digestSize hdr = 0 := by
  unfold digestSize
  rw [if_neg fun h' => h'.1 h]

/-- Without data there is no digest. -/
theorem WellRead.digest_eq_nil (h : cfg.WellRead p) (hdata : p.data = []) : p.digest = [] := by
  by_cases hzero : paddedSize p.hdr = 0
  · have hdigest := h.digest
    rw [digestSize_of_zero hzero] at hdigest
    exact List.length_eq_zero_iff.1 (Nat.le_zero.1 hdigest)
  · refine h.noDigest ?_
    rw [hdata]
    exact Nat.pos_of_ne_zero hzero

theorem wellRead_new : cfg.WellRead {} where
  hdr := Nat.zero_le _
  noData _ := rfl
  data := Nat.zero_le _
  noDigest _ := rfl
  digest := Nat.zero_le _
  calculated := by
    cases cfg.doDataDigest with
    | false => rfl
    | true => rfl

theorem not_whole_new : ¬cfg.Whole {} := fun h => hdrSize_pos.ne h.hdr_eq

/-- A step of the reading: what was read stays, and bytes from the beginning of the stream are added
to it. -/
structure Moved (cfg : ReadConfig) (p : Incoming) (socket : List Arrival) (p' : Incoming)
    (socket' : List Arrival) : Prop where
  wellRead : cfg.WellRead p'
  stream : p'.wire ++ streamOf socket' = p.wire ++ streamOf socket

theorem Moved.refl (h : cfg.WellRead p) : Moved cfg p socket p socket := ⟨h, rfl⟩

/-- The bytes that `recv` returns are added. -/
theorem moved_of_recv {count : Nat} {l : List UInt8} (hwell : cfg.WellRead p')
    (hrecv : recv socket count = (.bytes l, socket')) (hwire : p'.wire = p.wire ++ l) :
    Moved cfg p socket p' socket' := by
  refine ⟨hwell, ?_⟩
  have hstream := (recv_stream socket count).1
  rw [hrecv] at hstream
  rw [hstream, hwire, List.append_assoc]
  rfl

/-- `recv` returns nothing. -/
theorem moved_of_not_bytes {count : Nat} {r : Received} (hwell : cfg.WellRead p)
    (hrecv : recv socket count = (r, socket')) (hr : r.stream = []) :
    Moved cfg p socket p socket' := by
  refine ⟨hwell, ?_⟩
  have hstream := (recv_stream socket count).1
  rw [hrecv] at hstream
  rw [hstream, hr, List.nil_append]

/-- **The header.** -/
theorem readHeader_spec (hwell : cfg.WellRead p) :
    match cfg.readHeader p socket with
    | .error e => Moved cfg p socket e.incoming e.socket ∧ e.incoming.hdr.length < cfg.hdrSize
    | .ok (p', socket') => Moved cfg p socket p' socket' ∧ p'.hdr.length = cfg.hdrSize ∧
        (p' = p ∨ p'.data = []) := by
  unfold readHeader
  by_cases hlt : p.hdr.length < cfg.hdrSize
  · rw [if_pos hlt]
    obtain ⟨r, socket', hrecv⟩ : ∃ r socket', recv socket (cfg.hdrSize - p.hdr.length) =
        (r, socket') := ⟨_, _, rfl⟩
    have hlength := (recv_stream socket (cfg.hdrSize - p.hdr.length)).2
    rw [hrecv] at hlength
    rw [hrecv]
    cases r with
    | again => exact ⟨moved_of_not_bytes hwell hrecv rfl, hlt⟩
    | failed => exact ⟨moved_of_not_bytes hwell hrecv rfl, hlt⟩
    | bytes l =>
      simp only
      by_cases hnil : l = []
      · rw [if_pos hnil]
        exact ⟨moved_of_not_bytes hwell hrecv hnil, hlt⟩
      rw [if_neg hnil]
      have hdata := hwell.noData hlt
      have hdigest := hwell.digest_eq_nil hdata
      have hwell' : cfg.WellRead { p with hdr := p.hdr ++ l } :=
        { hdr := by
            rw [List.length_append]
            exact (Nat.add_le_of_le_sub' hwell.hdr hlength)
          noData := fun _ => hdata
          data := by
            rw [hdata]
            exact Nat.zero_le _
          noDigest := fun _ => hdigest
          digest := by
            rw [hdigest]
            exact Nat.zero_le _
          calculated := hwell.calculated }
      have hwire : Incoming.wire { p with hdr := p.hdr ++ l } = p.wire ++ l := by
        unfold Incoming.wire
        rw [hdata, hdigest]
        simp only [List.append_nil]
      have hmoved := moved_of_recv hwell' hrecv hwire
      by_cases hshort : (p.hdr ++ l).length < cfg.hdrSize
      · rw [if_pos hshort]
        exact ⟨hmoved, hshort⟩
      · rw [if_neg hshort]
        exact ⟨hmoved, le_antisymm hwell'.hdr (Nat.not_lt.1 hshort), .inr hdata⟩
  · rw [if_neg hlt]
    exact ⟨.refl hwell, le_antisymm hwell.hdr (Nat.not_lt.1 hlt), .inl rfl⟩

/-- No more is asked for than is missing of the data segment, and something as long as some is. -/
theorem askedFor_le {count : Nat} (h : cfg.askedFor p = some count) :
    count ≤ paddedSize p.hdr - p.data.length ∧
      (count = 0 ↔ paddedSize p.hdr ≤ p.data.length) := by
  unfold askedFor at h
  cases hroom : cfg.vectors p.hdr with
  | none =>
    rw [hroom] at h
    obtain rfl := Option.some.inj h
    exact ⟨le_rfl, Nat.sub_eq_zero_iff_le⟩
  | room =>
    rw [hroom] at h
    obtain rfl := Option.some.inj h
    split <;> omega
  | short =>
    rw [hroom] at h
    simp only at h
    split at h
    · cases h
    · obtain rfl := Option.some.inj h
      exact ⟨le_rfl, Nat.sub_eq_zero_iff_le⟩

/-- **The data segment.** -/
theorem readSegment_spec (hwell : cfg.WellRead p) (hhdr : p.hdr.length = cfg.hdrSize)
    (hnot : paddedSize p.hdr ≠ 0 → ¬cfg.Whole p) :
    match cfg.readSegment p socket with
    | .error e => Moved cfg p socket e.incoming e.socket ∧ ¬cfg.Whole e.incoming
    | .ok (p', socket') => Moved cfg p socket p' socket' ∧ p'.hdr = p.hdr ∧
        p'.data.length = paddedSize p'.hdr := by
  unfold readSegment
  by_cases hlong : iscsiGetPduDataSize p.hdr > cfg.initiatorMaxRecvDataSegmentLength.toNat
  · rw [if_pos hlong]
    refine ⟨.refl hwell, hnot ?_⟩
    unfold paddedSize
    omega
  rw [if_neg hlong]
  by_cases hzero : paddedSize p.hdr = 0
  · rw [if_pos hzero]
    have hdata := hwell.data
    exact ⟨.refl hwell, rfl, by omega⟩
  rw [if_neg hzero]
  have hnot := hnot hzero
  cases hasked : cfg.askedFor p with
  | none => exact ⟨.refl hwell, hnot⟩
  | some count =>
    simp only
    obtain ⟨hcount, hpos⟩ := askedFor_le hasked
    obtain ⟨r, socket', hrecv⟩ : ∃ r socket', recv socket count = (r, socket') := ⟨_, _, rfl⟩
    have hlength := (recv_stream socket count).2
    rw [hrecv] at hlength
    rw [hrecv]
    cases r with
    | again => exact ⟨moved_of_not_bytes hwell hrecv rfl, hnot⟩
    | failed => exact ⟨moved_of_not_bytes hwell hrecv rfl, hnot⟩
    | bytes l =>
      simp only
      by_cases hnil : l = []
      · rw [if_pos hnil]
        exact ⟨moved_of_not_bytes hwell hrecv hnil, hnot⟩
      rw [if_neg hnil]
      change l.length ≤ count at hlength
      have hsome : l.length ≠ 0 := fun h => hnil (List.length_eq_zero_iff.1 h)
      have hmissing : p.data.length < paddedSize p.hdr := by
        rw [← Nat.not_le, ← hpos]
        omega
      have hdigest := hwell.noDigest hmissing
      have hwell' : cfg.WellRead { p with
          data := p.data ++ l
          calculatedDataDigest := if cfg.doDataDigest then
            crc32cChain p.calculatedDataDigest l else p.calculatedDataDigest } :=
        { hdr := hwell.hdr
          noData := fun h => absurd hhdr h.ne
          data := by
            change (p.data ++ l).length ≤ paddedSize p.hdr
            rw [List.length_append]
            omega
          noDigest := fun _ => hdigest
          digest := by
            rw [hdigest]
            exact Nat.zero_le _
          calculated := by
            rw [hwell.calculated]
            cases cfg.doDataDigest with
            | false => rfl
            | true => exact (crc32cChain_append _ _ _).symm }
      have hwire : Incoming.wire { p with
          data := p.data ++ l
          calculatedDataDigest := if cfg.doDataDigest then
            crc32cChain p.calculatedDataDigest l else p.calculatedDataDigest } =
          p.wire ++ l := by
        unfold Incoming.wire
        rw [hdigest]
        simp only [List.append_nil, List.append_assoc]
      have hmoved := moved_of_recv hwell' hrecv hwire
      by_cases hshort : (p.data ++ l).length < paddedSize p.hdr
      · rw [if_pos hshort]
        exact ⟨hmoved, fun h => hshort.ne h.data_eq⟩
      · rw [if_neg hshort]
        exact ⟨hmoved, rfl, le_antisymm hwell'.data (Nat.not_lt.1 hshort)⟩

/-- **The data digest.** -/
theorem readDigest_spec (hwell : cfg.WellRead p) (hhdr : p.hdr.length = cfg.hdrSize)
    (hdata : p.data.length = paddedSize p.hdr) :
    match cfg.readDigest p socket with
    | .error e => Moved cfg p socket e.incoming e.socket ∧ ¬cfg.Whole e.incoming
    | .ok (p', socket') => Moved cfg p socket p' socket' ∧ cfg.Whole p' := by
  unfold readDigest
  by_cases hlt : p.digest.length < cfg.digestSize p.hdr
  · rw [if_pos hlt]
    have hfour : cfg.digestSize p.hdr = iscsiDigestSize := by
      unfold digestSize at hlt ⊢
      split at hlt
      · rename_i h
        rw [if_pos h]
      · exact absurd hlt (Nat.not_lt_zero _)
    have hnot : ¬cfg.Whole p := fun h => hlt.ne h.digest_eq
    obtain ⟨r, socket', hrecv⟩ : ∃ r socket', recv socket (iscsiDigestSize - p.digest.length) =
        (r, socket') := ⟨_, _, rfl⟩
    have hlength := (recv_stream socket (iscsiDigestSize - p.digest.length)).2
    rw [hrecv] at hlength
    rw [hrecv]
    cases r with
    | again => exact ⟨moved_of_not_bytes hwell hrecv rfl, hnot⟩
    | failed => exact ⟨moved_of_not_bytes hwell hrecv rfl, hnot⟩
    | bytes l =>
      simp only
      by_cases hnil : l = []
      · rw [if_pos hnil]
        exact ⟨moved_of_not_bytes hwell hrecv hnil, hnot⟩
      rw [if_neg hnil]
      change l.length ≤ iscsiDigestSize - p.digest.length at hlength
      have hwell' : cfg.WellRead { p with digest := p.digest ++ l } :=
        { hdr := hwell.hdr
          noData := hwell.noData
          data := hwell.data
          noDigest := fun h => absurd hdata h.ne
          digest := by
            change (p.digest ++ l).length ≤ cfg.digestSize p.hdr
            rw [List.length_append]
            omega
          calculated := hwell.calculated }
      have hwire : Incoming.wire { p with digest := p.digest ++ l } = p.wire ++ l :=
        (List.append_assoc _ _ _).symm
      have hmoved := moved_of_recv hwell' hrecv hwire
      by_cases hshort : (p.digest ++ l).length < iscsiDigestSize
      · rw [if_pos hshort]
        refine ⟨hmoved, fun h => hshort.ne ?_⟩
        exact h.digest_eq.trans hfour
      · rw [if_neg hshort]
        refine ⟨hmoved, hwell', hhdr, hdata, le_antisymm hwell'.digest ?_⟩
        change cfg.digestSize p.hdr ≤ _
        rw [hfour]
        exact Nat.not_lt.1 hshort
  · rw [if_neg hlt]
    exact ⟨.refl hwell, hwell, hhdr, hdata, le_antisymm hwell.digest (Nat.not_lt.1 hlt)⟩

theorem Moved.trans {p'' : Incoming} {socket'' : List Arrival} (h : Moved cfg p socket p' socket')
    (h' : Moved cfg p' socket' p'' socket'') : Moved cfg p socket p'' socket'' :=
  ⟨h'.wellRead, h'.stream.trans h.stream⟩

/-- **A turn of the loop.** -/
theorem readTurn_spec (hwell : cfg.WellRead p) (hnot : ¬cfg.Whole p) :
    match cfg.readTurn p socket with
    | .error e => Moved cfg p socket e.incoming e.socket ∧ ¬cfg.Whole e.incoming
    | .ok (p', socket') => Moved cfg p socket p' socket' ∧ cfg.Whole p' := by
  have hheader := @readHeader_spec cfg p socket hwell
  unfold readTurn
  cases h₁ : cfg.readHeader p socket with
  | error e =>
    rw [h₁] at hheader
    exact ⟨hheader.1, fun h => hheader.2.ne h.hdr_eq⟩
  | ok q₁ =>
    obtain ⟨p₁, socket₁⟩ := q₁
    rw [h₁] at hheader
    obtain ⟨hmoved₁, hhdr₁, hcase⟩ := hheader
    have hnot₁ : paddedSize p₁.hdr ≠ 0 → ¬cfg.Whole p₁ := by
      intro hzero hwhole
      rcases hcase with rfl | hnil
      · exact hnot hwhole
      · have hdata := hwhole.data_eq
        rw [hnil] at hdata
        exact hzero hdata.symm
    have hsegment := @readSegment_spec cfg p₁ socket₁ hmoved₁.wellRead hhdr₁ hnot₁
    simp only [Outcome.ok_bind]
    cases h₂ : cfg.readSegment p₁ socket₁ with
    | error e =>
      rw [h₂] at hsegment
      exact ⟨hmoved₁.trans hsegment.1, hsegment.2⟩
    | ok q₂ =>
      obtain ⟨p₂, socket₂⟩ := q₂
      rw [h₂] at hsegment
      obtain ⟨hmoved₂, hhdr₂, hdata₂⟩ := hsegment
      have hdigest := @readDigest_spec cfg p₂ socket₂ hmoved₂.wellRead (hhdr₂ ▸ hhdr₁) hdata₂
      simp only [Outcome.ok_bind]
      cases h₃ : cfg.readDigest p₂ socket₂ with
      | error e =>
        rw [h₃] at hdigest
        exact ⟨(hmoved₁.trans hmoved₂).trans hdigest.1, hdigest.2⟩
      | ok q₃ =>
        obtain ⟨p₃, socket₃⟩ := q₃
        rw [h₃] at hdigest
        exact ⟨(hmoved₁.trans hmoved₂).trans hdigest.1, hdigest.2⟩

/-- What has been read of a PDU depends on the digests alone. -/
theorem WellRead.congr {cfg' : ReadConfig} (hsize : cfg'.hdrSize = cfg.hdrSize)
    (hdo : cfg'.doDataDigest = cfg.doDataDigest) (h : cfg'.WellRead p) : cfg.WellRead p where
  hdr := hsize ▸ h.hdr
  noData := hsize ▸ h.noData
  data := h.data
  noDigest := h.noDigest
  digest := by
    have hdigest := h.digest
    unfold digestSize at hdigest ⊢
    rw [← hdo]
    exact hdigest
  calculated := hdo ▸ h.calculated

theorem Whole.congr {cfg' : ReadConfig} (hsize : cfg'.hdrSize = cfg.hdrSize)
    (hdo : cfg'.doDataDigest = cfg.doDataDigest) (h : cfg'.Whole p) : cfg.Whole p where
  toWellRead := h.toWellRead.congr hsize hdo
  hdr_eq := hsize ▸ h.hdr_eq
  data_eq := h.data_eq
  digest_eq := by
    have hdigest := h.digest_eq
    unfold digestSize at hdigest ⊢
    rw [← hdo]
    exact hdigest

/-! ## Frames -/

/-- The encoding of a PDU is not the beginning of that of another one. -/
theorem prefixFree_wire (cfg : ReadConfig) : PrefixFree cfg.Whole Incoming.wire := by
  rintro ⟨hdr, data, digest, crc⟩ ⟨hdr', data', digest', crc'⟩ hf hg ⟨rest, heq⟩
  simp only [Incoming.wire, List.append_assoc] at heq
  have hlength : hdr.length = hdr'.length := hf.hdr_eq.trans hg.hdr_eq.symm
  obtain ⟨rfl, hbody⟩ := List.append_inj heq hlength
  obtain ⟨rfl, htail⟩ := List.append_inj hbody (hf.data_eq.trans hg.data_eq.symm)
  have hdigest : (digest ++ rest).length = digest'.length := congrArg List.length htail
  have hrest : rest = [] := by
    have h : digest.length = digest'.length := hf.digest_eq.trans hg.digest_eq.symm
    rw [List.length_append] at hdigest
    exact List.length_eq_zero_iff.1 (by omega)
  rw [hrest, List.append_nil] at htail
  obtain rfl := htail
  obtain rfl : crc = crc' := hf.calculated.trans hg.calculated.symm
  rfl

/-- What is missing of a list. -/
theorem length_append_replicate {l : List UInt8} {n : Nat} (h : l.length ≤ n) :
    (l ++ List.replicate (n - l.length) 0).length = n := by
  rw [List.length_append, List.length_replicate]
  omega

/-- What has been read of a PDU is to be completed. -/
theorem pending_wire (hwell : cfg.WellRead p) (hnot : ¬cfg.Whole p) :
    Framing.Pending cfg.Whole Incoming.wire p.wire := by
  let hdr := p.hdr ++ List.replicate (cfg.hdrSize - p.hdr.length) 0
  have hsame : p.hdr.length = cfg.hdrSize → hdr = p.hdr := by
    intro h
    simp only [hdr, h, Nat.sub_self, List.replicate_zero, List.append_nil]
  have hempty : p.hdr.length ≠ cfg.hdrSize → p.data = [] ∧ p.digest = [] := by
    intro h
    have hdata := hwell.noData (lt_of_le_of_ne hwell.hdr h)
    exact ⟨hdata, hwell.digest_eq_nil hdata⟩
  have hdata : p.data.length ≤ paddedSize hdr := by
    by_cases h : p.hdr.length = cfg.hdrSize
    · rw [hsame h]
      exact hwell.data
    · rw [(hempty h).1]
      exact Nat.zero_le _
  have hdigest : p.digest.length ≤ cfg.digestSize hdr := by
    by_cases h : p.hdr.length = cfg.hdrSize
    · rw [hsame h]
      exact hwell.digest
    · rw [(hempty h).2]
      exact Nat.zero_le _
  let data := p.data ++ List.replicate (paddedSize hdr - p.data.length) 0
  let digest := p.digest ++ List.replicate (cfg.digestSize hdr - p.digest.length) 0
  let q : Incoming := { hdr, data, digest
                        calculatedDataDigest := if cfg.doDataDigest then
                          crc32cChain 0xffffffff data else 0xffffffff }
  have hhdr : hdr.length = cfg.hdrSize := length_append_replicate hwell.hdr
  have hdata' : data.length = paddedSize hdr := length_append_replicate hdata
  have hdigest' : digest.length = cfg.digestSize hdr := length_append_replicate hdigest
  have hq : cfg.Whole q :=
    { hdr := hhdr.le
      noData := fun h => absurd hhdr h.ne
      data := hdata'.le
      noDigest := fun h => absurd hdata' h.ne
      digest := hdigest'.le
      calculated := rfl
      hdr_eq := hhdr
      data_eq := hdata'
      digest_eq := hdigest' }
  have hprefix : p.wire <+: q.wire := by
    change p.hdr ++ p.data ++ p.digest <+: hdr ++ data ++ digest
    by_cases h : p.hdr.length = cfg.hdrSize
    · rw [hsame h, List.append_assoc, List.append_assoc]
      refine (List.prefix_append_right_inj _).2 ?_
      by_cases h' : p.data.length = paddedSize hdr
      · have hfull : data = p.data := by
          simp only [data, h', Nat.sub_self, List.replicate_zero, List.append_nil]
        rw [hfull]
        exact (List.prefix_append_right_inj _).2 (List.prefix_append _ _)
      · rw [hsame h] at h'
        rw [hwell.noDigest (lt_of_le_of_ne hwell.data h'), List.append_nil]
        exact (List.prefix_append _ _).trans (List.prefix_append _ _)
    · rw [(hempty h).1, (hempty h).2, List.append_nil, List.append_nil, List.append_assoc]
      exact (List.prefix_append _ _).trans (List.prefix_append _ _)
  refine ⟨q, hq, hprefix, fun heq => hnot ?_⟩
  -- The lengths add up, and each part is no longer than it is in the end.
  have hlength := congrArg List.length heq
  simp only [Incoming.wire, List.length_append] at hlength
  have hle := hwell.hdr
  change _ = hdr.length + data.length + digest.length at hlength
  have hhdr_eq : p.hdr.length = cfg.hdrSize := by omega
  have hdata_eq : p.data.length = paddedSize hdr := by omega
  have hdigest_eq : p.digest.length = cfg.digestSize hdr := by omega
  rw [hsame hhdr_eq] at hdata_eq hdigest_eq
  exact ⟨hwell, hhdr_eq, hdata_eq, hdigest_eq⟩

end ReadConfig

/-! ## Runs -/

namespace Reader
variable {cfg : ReadConfig} {s s' : Reader}

/-- The bytes of the PDUs that were handed on, of the one that is being read, and those that are
still in the socket. -/
def content (s : Reader) : List UInt8 :=
  s.delivered.flatMap Incoming.wire ++ (s.incoming.wire ++ streamOf s.socket)

/-- The PDUs that were handed on are whole, the one that is being read is not. -/
structure Inv (cfg : ReadConfig) (s : Reader) : Prop where
  whole : ∀ p ∈ s.delivered, cfg.Whole p
  wellRead : cfg.WellRead s.incoming
  not_whole : ¬cfg.Whole s.incoming

theorem inv_new (socket : List Arrival) : Inv cfg { socket } :=
  ⟨List.forall_mem_nil _, ReadConfig.wellRead_new, ReadConfig.not_whole_new⟩

/-- A PDU is handed on. -/
theorem Inv.deliver (hi : s.Inv cfg) {p : Incoming} {socket : List Arrival}
    (h : cfg.readTurn s.incoming s.socket = .ok (p, socket)) :
    Inv cfg { incoming := {}, delivered := s.delivered ++ [p], socket } ∧
      content { incoming := {}, delivered := s.delivered ++ [p], socket } = s.content := by
  have hspec := @ReadConfig.readTurn_spec cfg _ s.socket hi.wellRead hi.not_whole
  rw [h] at hspec
  obtain ⟨hmoved, hwhole⟩ := hspec
  refine ⟨⟨?_, ReadConfig.wellRead_new, ReadConfig.not_whole_new⟩, ?_⟩
  · intro q hq
    rcases List.mem_append.1 hq with hq | hq
    · exact hi.whole q hq
    · exact List.mem_singleton.1 hq ▸ hwhole
  · unfold content
    rw [List.flatMap_append, List.flatMap_singleton, List.append_assoc, ← hmoved.stream]
    rfl

/-- **The loop loses nothing and adds nothing.** -/
theorem Inv.readLoop {fuel : Nat} (hi : s.Inv cfg) :
    (cfg.readLoop fuel s).2.Inv cfg ∧ (cfg.readLoop fuel s).2.content = s.content := by
  induction fuel generalizing s with
  | zero => exact ⟨hi, rfl⟩
  | succ fuel ih =>
    unfold ReadConfig.readLoop
    cases h : cfg.readTurn s.incoming s.socket with
    | error e =>
      have hspec := @ReadConfig.readTurn_spec cfg _ s.socket hi.wellRead hi.not_whole
      rw [h] at hspec
      refine ⟨⟨hi.whole, hspec.1.wellRead, hspec.2⟩, ?_⟩
      unfold content
      rw [← hspec.1.stream]
    | ok q =>
      obtain ⟨p, socket⟩ := q
      obtain ⟨hi', hcontent⟩ := hi.deliver h
      simp only
      cases cfg.handle (s.delivered ++ [p]) with
      | none => exact ⟨hi', hcontent⟩
      | some again =>
        cases again with
        | false => exact ⟨hi', hcontent⟩
        | true =>
          obtain ⟨hi'', hcontent'⟩ := ih hi'
          exact ⟨hi'', hcontent'.trans hcontent⟩

/-- **A call.** -/
theorem Inv.readFromSocket (hi : s.Inv cfg) (arrivals : List Arrival) :
    (cfg.iscsiReadFromSocket s arrivals).2.Inv cfg ∧
      (cfg.iscsiReadFromSocket s arrivals).2.content = s.content ++ streamOf arrivals := by
  have hi' : Inv cfg { s with socket := s.socket ++ arrivals } :=
    ⟨hi.whole, hi.wellRead, hi.not_whole⟩
  obtain ⟨hinv, hcontent⟩ :=
    @Inv.readLoop cfg _ ((streamOf (s.socket ++ arrivals)).length + 1) hi'
  refine ⟨hinv, hcontent.trans ?_⟩
  unfold content
  rw [streamOf_append]
  simp only [List.append_assoc]

/-- Calls from a state of a run. -/
theorem Inv.readCalls (hi : s.Inv cfg) (calls : List (List Arrival)) :
    (cfg.readCalls s calls).2.Inv cfg ∧ ∃ n,
      (cfg.readCalls s calls).2.content = s.content ++ streamOf (calls.take n).flatten ∧
        ((cfg.readCalls s calls).1 = true → calls.length ≤ n) := by
  induction calls generalizing s with
  | nil => exact ⟨hi, 0, (List.append_nil _).symm, fun _ => le_rfl⟩
  | cons arrivals calls ih =>
    obtain ⟨hi', hcontent⟩ := hi.readFromSocket arrivals
    unfold ReadConfig.readCalls
    obtain ⟨r, s', hcall⟩ : ∃ r s', cfg.iscsiReadFromSocket s arrivals = (r, s') := ⟨_, _, rfl⟩
    rw [hcall] at hi' hcontent ⊢
    cases r with
    | false =>
      refine ⟨hi', 1, ?_, fun h => by cases h⟩
      rw [List.take_succ_cons, List.take_zero, List.flatten_singleton]
      exact hcontent
    | true =>
      obtain ⟨hi'', n, hrest, hn⟩ := ih hi'
      refine ⟨hi'', n + 1, ?_, fun h => Nat.succ_le_succ (hn h)⟩
      refine hrest.trans ?_
      rw [List.take_succ_cons, List.flatten_cons, streamOf_append, ← List.append_assoc]
      exact congrArg (· ++ _) hcontent

end Reader

/-- **Nothing is lost, repeated or moved.** In a run the PDUs that were handed on are whole, with
the digest of their data. Their bytes, then those of the PDU that is being read and those that are
still in the socket, are the bytes that arrived for the calls that were made. -/
theorem readCalls_stream (cfg : ReadConfig) (calls : List (List Arrival)) :
    (∀ p ∈ (cfg.readCalls {} calls).2.delivered, cfg.Whole p) ∧ ∃ n,
      (cfg.readCalls {} calls).2.content = streamOf (calls.take n).flatten ∧
        ((cfg.readCalls {} calls).1 = true → calls.length ≤ n) :=
  ⟨((Reader.inv_new []).readCalls calls).1.whole, ((Reader.inv_new []).readCalls calls).2⟩

/-- **The stream determines the PDUs.** Two runs that read the same bytes, whatever their cuts and
whatever vectors the tasks have, hand on the same PDUs, with the same digests, and have the same
bytes of the next one. -/
theorem readCalls_unique {cfg cfg' : ReadConfig} (hheader : cfg'.headerDigest = cfg.headerDigest)
    (hdata : cfg'.dataDigest = cfg.dataDigest) {calls calls' : List (List Arrival)}
    (hok : (cfg.readCalls {} calls).1 = true) (hok' : (cfg'.readCalls {} calls').1 = true)
    (hall : streamOf (cfg.readCalls {} calls).2.socket = [])
    (hall' : streamOf (cfg'.readCalls {} calls').2.socket = [])
    (hsame : streamOf calls.flatten = streamOf calls'.flatten) :
    (cfg.readCalls {} calls).2.delivered = (cfg'.readCalls {} calls').2.delivered ∧
      (cfg.readCalls {} calls).2.incoming.wire = (cfg'.readCalls {} calls').2.incoming.wire := by
  obtain ⟨hi, n, hcontent, hn⟩ := (@Reader.inv_new cfg []).readCalls calls
  obtain ⟨hi', n', hcontent', hn'⟩ := (@Reader.inv_new cfg' []).readCalls calls'
  rw [List.take_of_length_le (hn hok)] at hcontent
  rw [List.take_of_length_le (hn' hok'), ← hsame] at hcontent'
  have heq := hcontent.trans hcontent'.symm
  unfold Reader.content at heq
  rw [hall, hall', List.append_nil, List.append_nil] at heq
  have hsize : cfg'.hdrSize = cfg.hdrSize := congrArg iscsiHeaderSize hheader
  have hdo : cfg'.doDataDigest = cfg.doDataDigest := by
    unfold ReadConfig.doDataDigest
    rw [hdata]
  refine frames_unique (ReadConfig.prefixFree_wire cfg) hi.whole
    (fun p hp => (hi'.whole p hp).congr hsize hdo)
    (ReadConfig.pending_wire hi.wellRead hi.not_whole)
    (ReadConfig.pending_wire (hi'.wellRead.congr hsize hdo) fun h => ?_) heq
  exact hi'.not_whole (h.congr hsize.symm hdo.symm)

/-- A reader without digests, for tasks without vectors. -/
def plainReader : ReadConfig where
  headerDigest := .none
  dataDigest := .none
  initiatorMaxRecvDataSegmentLength := 262144
  vectors := fun _ => .none
  handle := fun _ => some false

/-- A header that comes in one piece or in two. -/
theorem readCalls_unique_header :
    (plainReader.readCalls {} [restOf (List.replicate 48 0)]).2.delivered =
      (plainReader.readCalls {}
        [restOf (List.replicate 20 0), restOf (List.replicate 28 0)]).2.delivered :=
  (readCalls_unique rfl rfl (by decide) (by decide) (by decide) (by decide) (by decide)).1

/-! ## Calls that succeed -/

/-- No data segment of the stream is longer than is allowed. -/
inductive Legal (cfg : ReadConfig) : List UInt8 → Prop where
  | short {l : List UInt8} : l.length < cfg.hdrSize → Legal cfg l
  | frame {l : List UInt8} : cfg.hdrSize ≤ l.length →
      iscsiGetPduDataSize (l.take cfg.hdrSize) ≤ cfg.initiatorMaxRecvDataSegmentLength.toNat →
      Legal cfg (l.drop (cfg.hdrSize + (paddedSize (l.take cfg.hdrSize) +
        cfg.digestSize (l.take cfg.hdrSize)))) → Legal cfg l

/-- The beginning of a legal stream is legal. -/
theorem Legal.of_append {cfg : ReadConfig} {l l' : List UInt8} (h : Legal cfg (l ++ l')) :
    Legal cfg l := by
  generalize heq : l ++ l' = stream at h
  induction h generalizing l l' with
  | short hlt =>
    rw [← heq, List.length_append] at hlt
    exact .short (by omega)
  | frame hle hsize _ ih =>
    subst heq
    by_cases hlt : l.length < cfg.hdrSize
    · exact .short hlt
    have hle' := Nat.not_lt.1 hlt
    rw [List.take_append_of_le_length hle'] at hsize ih
    exact .frame hle' hsize (ih (List.drop_append ..).symm)

namespace ReadConfig
variable {cfg : ReadConfig} {p p' : Incoming} {socket socket' : List Arrival} {e : ReadExit}

/-- The header of a PDU at the beginning of a legal stream. -/
theorem Legal.size {l : List UInt8} (h : Legal cfg (p.wire ++ l))
    (hhdr : p.hdr.length = cfg.hdrSize) :
    iscsiGetPduDataSize p.hdr ≤ cfg.initiatorMaxRecvDataSegmentLength.toNat := by
  have htake : (p.wire ++ l).take cfg.hdrSize = p.hdr := by
    unfold Incoming.wire
    rw [List.append_assoc, List.append_assoc, List.take_append_of_le_length hhdr.ge,
      List.take_of_length_le hhdr.le]
  cases h with
  | short hlt =>
    unfold Incoming.wire at hlt
    simp only [List.length_append] at hlt
    omega
  | frame _ hsize _ => exact htake ▸ hsize

/-- What follows a PDU. -/
theorem Legal.rest {l : List UInt8} (h : Legal cfg (p.wire ++ l)) (hp : cfg.Whole p) :
    Legal cfg l := by
  have htake : (p.wire ++ l).take cfg.hdrSize = p.hdr := by
    unfold Incoming.wire
    rw [List.append_assoc, List.append_assoc, List.take_append_of_le_length hp.hdr_eq.ge,
      List.take_of_length_le hp.hdr_eq.le]
  have hlength : p.wire.length = cfg.hdrSize + (paddedSize p.hdr + cfg.digestSize p.hdr) := by
    unfold Incoming.wire
    rw [List.length_append, List.length_append, hp.hdr_eq, hp.data_eq, hp.digest_eq,
      Nat.add_assoc]
  cases h with
  | short hlt =>
    rw [List.length_append, hlength] at hlt
    omega
  | frame _ _ hrest =>
    rw [htake, ← hlength, List.drop_left] at hrest
    exact hrest

/-- The header is read without an error. -/
theorem readHeader_open (hopen : Open socket) :
    match cfg.readHeader p socket with
    | .error e => e.ok = true ∧ Open e.socket
    | .ok (_, socket') => Open socket' := by
  unfold readHeader
  by_cases hlt : p.hdr.length < cfg.hdrSize
  · rw [if_pos hlt]
    obtain ⟨hr, hopen'⟩ := @Open.recv _ hopen (cfg.hdrSize - p.hdr.length) (by omega)
    obtain ⟨r, socket', hrecv⟩ : ∃ r socket', recv socket (cfg.hdrSize - p.hdr.length) =
        (r, socket') := ⟨_, _, rfl⟩
    rw [hrecv] at hr hopen' ⊢
    rcases hr with rfl | ⟨l, rfl, hne⟩
    · exact ⟨rfl, hopen'⟩
    · simp only [if_neg hne]
      by_cases hshort : (p.hdr ++ l).length < cfg.hdrSize
      · rw [if_pos hshort]
        exact ⟨rfl, hopen'⟩
      · rw [if_neg hshort]
        exact hopen'
  · rw [if_neg hlt]
    exact hopen

/-- The data segment is read without an error, if some of it is missing. -/
theorem readSegment_open (hopen : Open socket) (hvectors : ∀ hdr, cfg.vectors hdr ≠ .short)
    (hsize : iscsiGetPduDataSize p.hdr ≤ cfg.initiatorMaxRecvDataSegmentLength.toNat)
    (hmissing : paddedSize p.hdr ≠ 0 → p.data.length < paddedSize p.hdr) :
    match cfg.readSegment p socket with
    | .error e => e.ok = true ∧ Open e.socket
    | .ok (_, socket') => Open socket' := by
  unfold readSegment
  rw [if_neg (Nat.not_lt.2 hsize)]
  by_cases hzero : paddedSize p.hdr = 0
  · rw [if_pos hzero]
    exact hopen
  rw [if_neg hzero]
  obtain ⟨count, hasked⟩ : ∃ count, cfg.askedFor p = some count := by
    unfold askedFor
    cases h : cfg.vectors p.hdr with
    | none => exact ⟨_, rfl⟩
    | room => exact ⟨_, rfl⟩
    | short => exact absurd h (hvectors _)
  rw [hasked]
  have hpos : count ≠ 0 := fun h => Nat.not_le.2 (hmissing hzero) ((askedFor_le hasked).2.1 h)
  obtain ⟨hr, hopen'⟩ := hopen.recv hpos
  obtain ⟨r, socket', hrecv⟩ : ∃ r socket', recv socket count = (r, socket') := ⟨_, _, rfl⟩
  rw [hrecv] at hr hopen'
  simp only [hrecv]
  rcases hr with rfl | ⟨l, rfl, hne⟩
  · exact ⟨rfl, hopen'⟩
  · simp only [if_neg hne]
    by_cases hshort : (p.data ++ l).length < paddedSize p.hdr
    · rw [if_pos hshort]
      exact ⟨rfl, hopen'⟩
    · rw [if_neg hshort]
      exact hopen'

/-- The digest is read without an error. -/
theorem readDigest_open (hopen : Open socket) :
    match cfg.readDigest p socket with
    | .error e => e.ok = true ∧ Open e.socket
    | .ok (_, socket') => Open socket' := by
  unfold readDigest
  by_cases hlt : p.digest.length < cfg.digestSize p.hdr
  · rw [if_pos hlt]
    have hfour : cfg.digestSize p.hdr ≤ iscsiDigestSize := by
      unfold digestSize
      split
      · exact le_rfl
      · exact Nat.zero_le _
    obtain ⟨hr, hopen'⟩ := @Open.recv _ hopen (iscsiDigestSize - p.digest.length) (by omega)
    obtain ⟨r, socket', hrecv⟩ : ∃ r socket', recv socket (iscsiDigestSize - p.digest.length) =
        (r, socket') := ⟨_, _, rfl⟩
    rw [hrecv] at hr hopen' ⊢
    rcases hr with rfl | ⟨l, rfl, hne⟩
    · exact ⟨rfl, hopen'⟩
    · simp only [if_neg hne]
      by_cases hshort : (p.digest ++ l).length < iscsiDigestSize
      · rw [if_pos hshort]
        exact ⟨rfl, hopen'⟩
      · rw [if_neg hshort]
        exact hopen'
  · rw [if_neg hlt]
    exact hopen

/-- **A turn that begins between a data segment and its digest fails.** -/
theorem readTurn_stuck (hstuck : cfg.Stuck p) :
    ∃ e, cfg.readTurn p socket = .error e ∧ e.ok = false := by
  obtain ⟨hhdr, hdata, hdigest⟩ := hstuck
  have hzero : paddedSize p.hdr ≠ 0 := by
    intro h
    rw [digestSize_of_zero h] at hdigest
    exact absurd hdigest (Nat.not_lt_zero _)
  have hsegment : ∃ e, cfg.readSegment p socket = .error e ∧ e.ok = false := by
    unfold readSegment
    by_cases hlong : iscsiGetPduDataSize p.hdr > cfg.initiatorMaxRecvDataSegmentLength.toNat
    · rw [if_pos hlong]
      exact ⟨_, rfl, rfl⟩
    rw [if_neg hlong, if_neg hzero]
    have hnone : paddedSize p.hdr - p.data.length = 0 := by omega
    have hasked : cfg.askedFor p = some 0 := by
      unfold askedFor
      simp only [hnone]
      cases cfg.vectors p.hdr with
      | none => rfl
      | room => rfl
      | short => rfl
    rw [hasked]
    exact ⟨_, rfl, rfl⟩
  obtain ⟨e, herror, hfalse⟩ := hsegment
  refine ⟨e, ?_, hfalse⟩
  unfold readTurn readHeader
  rw [if_neg hhdr.not_lt]
  simp only [Outcome.ok_bind, herror, Outcome.error_bind]

/-- **Every other turn is made without an error.** -/
theorem readTurn_open (hwell : cfg.WellRead p) (hnot : ¬cfg.Whole p) (hopen : Open socket)
    (hvectors : ∀ hdr, cfg.vectors hdr ≠ .short)
    (hlegal : Legal cfg (p.wire ++ streamOf socket)) (hstuck : ¬cfg.Stuck p) :
    match cfg.readTurn p socket with
    | .error e => e.ok = true ∧ Open e.socket
    | .ok (_, socket') => Open socket' := by
  have hheader := @readHeader_spec cfg p socket hwell
  have hheader' := @readHeader_open cfg p socket hopen
  unfold readTurn
  cases h₁ : cfg.readHeader p socket with
  | error e =>
    rw [h₁] at hheader'
    exact hheader'
  | ok q₁ =>
    obtain ⟨p₁, socket₁⟩ := q₁
    rw [h₁] at hheader hheader'
    obtain ⟨hmoved, hhdr, hcase⟩ := hheader
    have hmissing : paddedSize p₁.hdr ≠ 0 → p₁.data.length < paddedSize p₁.hdr := by
      intro hzero
      rcases hcase with rfl | hnil
      · refine lt_of_le_of_ne hwell.data fun hdata => ?_
        have hdigest := Nat.not_lt.1 fun h => hstuck ⟨hhdr, hdata, h⟩
        exact hnot ⟨hwell, hhdr, hdata, le_antisymm hwell.digest hdigest⟩
      · rw [hnil]
        exact Nat.pos_of_ne_zero hzero
    have hsize := Legal.size (hmoved.stream ▸ hlegal) hhdr
    have hsegment := @readSegment_open cfg p₁ socket₁ hheader' hvectors hsize hmissing
    simp only [Outcome.ok_bind]
    cases h₂ : cfg.readSegment p₁ socket₁ with
    | error e =>
      rw [h₂] at hsegment
      exact hsegment
    | ok q₂ =>
      obtain ⟨p₂, socket₂⟩ := q₂
      rw [h₂] at hsegment
      simp only [Outcome.ok_bind]
      exact readDigest_open hsegment

end ReadConfig

namespace Reader
variable {cfg : ReadConfig} {s : Reader}

/-- A call succeeds exactly if it does not begin between a data segment and its digest. -/
theorem Inv.readLoop_ok (hi : s.Inv cfg) (hopen : Open s.socket)
    (hvectors : ∀ hdr, cfg.vectors hdr ≠ .short) (hhandle : ∀ l, cfg.handle l ≠ none)
    {later : List UInt8} (hlegal : Legal cfg (s.incoming.wire ++ (streamOf s.socket ++ later)))
    {fuel : Nat} (hfuel : (streamOf s.socket).length < fuel) :
    ((cfg.readLoop fuel s).1 = true ↔ ¬cfg.Stuck s.incoming) ∧
      (¬cfg.Stuck s.incoming → Open (cfg.readLoop fuel s).2.socket ∧
        Legal cfg ((cfg.readLoop fuel s).2.incoming.wire ++
          (streamOf (cfg.readLoop fuel s).2.socket ++ later))) := by
  induction fuel generalizing s with
  | zero => exact absurd hfuel (Nat.not_lt_zero _)
  | succ fuel ih =>
    unfold ReadConfig.readLoop
    by_cases hstuck : cfg.Stuck s.incoming
    · obtain ⟨e, herror, hfalse⟩ := @ReadConfig.readTurn_stuck cfg _ s.socket hstuck
      rw [herror]
      refine ⟨iff_of_false ?_ (not_not.2 hstuck), fun h => absurd hstuck h⟩
      exact fun h => Bool.false_ne_true (hfalse.symm.trans h)
    have hspec := @ReadConfig.readTurn_spec cfg _ s.socket hi.wellRead hi.not_whole
    have hnow : Legal cfg (s.incoming.wire ++ streamOf s.socket) := by
      rw [← List.append_assoc] at hlegal
      exact hlegal.of_append
    have hturn := ReadConfig.readTurn_open hi.wellRead hi.not_whole hopen hvectors hnow hstuck
    cases h : cfg.readTurn s.incoming s.socket with
    | error e =>
      rw [h] at hspec hturn
      rw [← List.append_assoc, ← hspec.1.stream, List.append_assoc] at hlegal
      exact ⟨iff_of_true hturn.1 hstuck, fun _ => ⟨hturn.2, hlegal⟩⟩
    | ok q =>
      obtain ⟨p, socket⟩ := q
      rw [h] at hspec hturn
      obtain ⟨hmoved, hwhole⟩ := hspec
      rw [← List.append_assoc, ← hmoved.stream, List.append_assoc] at hlegal
      have hlegal' : Legal cfg (streamOf socket ++ later) := ReadConfig.Legal.rest hlegal hwhole
      have hnew : ¬cfg.Stuck {} := fun h => ReadConfig.hdrSize_pos.ne h.1
      have hi' := (hi.deliver h).1
      -- The turn read something, as the PDU was not whole before.
      have hless : (streamOf socket).length < (streamOf s.socket).length := by
        have hlength := congrArg List.length hmoved.stream
        rw [List.length_append, List.length_append] at hlength
        have hmore : ¬p.wire.length ≤ s.incoming.wire.length := by
          intro hle
          have hprefix : p.wire <+: s.incoming.wire ++ streamOf s.socket :=
            ⟨_, hmoved.stream⟩
          have hpending := ReadConfig.pending_wire hi.wellRead hi.not_whole
          exact hpending.not_prefix (ReadConfig.prefixFree_wire cfg) hwhole
            (List.prefix_of_prefix_length_le hprefix (List.prefix_append _ _) hle)
        omega
      simp only
      cases hagain : cfg.handle (s.delivered ++ [p]) with
      | none => exact absurd hagain (hhandle _)
      | some again =>
        cases again with
        | false => exact ⟨iff_of_true rfl hstuck, fun _ => ⟨hturn, hlegal'⟩⟩
        | true =>
          obtain ⟨hok, hrest⟩ := @ih { incoming := {}, delivered := s.delivered ++ [p], socket }
            hi' hturn hlegal' (by simp only; omega)
          exact ⟨iff_of_true (hok.2 hnew) hstuck, fun _ => hrest hnew⟩

/-- Calls from a state of a run. -/
theorem Inv.readCalls_ok (hi : s.Inv cfg) (hopen : Open s.socket)
    (hvectors : ∀ hdr, cfg.vectors hdr ≠ .short) (hhandle : ∀ l, cfg.handle l ≠ none)
    {calls : List (List Arrival)} (hcalls : ∀ arrivals ∈ calls, Open arrivals)
    (hlegal : Legal cfg (s.incoming.wire ++ (streamOf s.socket ++ streamOf calls.flatten))) :
    (cfg.readCalls s calls).1 = true ↔
      ∀ n < calls.length, ¬cfg.Stuck (cfg.readCalls s (calls.take n)).2.incoming := by
  induction calls generalizing s with
  | nil => exact iff_of_true rfl fun n hn => absurd hn (Nat.not_lt_zero n)
  | cons arrivals calls ih =>
    obtain ⟨harrivals, hcalls⟩ := List.forall_mem_cons.1 hcalls
    have hopen' : Open (s.socket ++ arrivals) := hopen.append harrivals
    have hi' : Inv cfg { s with socket := s.socket ++ arrivals } :=
      ⟨hi.whole, hi.wellRead, hi.not_whole⟩
    rw [List.flatten_cons, streamOf_append, ← List.append_assoc (streamOf _), ← streamOf_append]
      at hlegal
    obtain ⟨hok, hnext⟩ := hi'.readLoop_ok hopen' hvectors hhandle hlegal (Nat.lt_succ_self _)
    have hinv := (hi.readFromSocket arrivals).1
    obtain ⟨r, s', hcall⟩ : ∃ r s', cfg.iscsiReadFromSocket s arrivals = (r, s') := ⟨_, _, rfl⟩
    rw [hcall] at hinv
    have hloop := hcall
    unfold ReadConfig.iscsiReadFromSocket at hloop
    simp only [hloop] at hok hnext
    by_cases hstuck : cfg.Stuck s.incoming
    · have hfalse : r = false := Bool.eq_false_iff.2 fun h => hok.1 h hstuck
      refine iff_of_false ?_ fun h => h 0 (Nat.succ_pos _) hstuck
      unfold ReadConfig.readCalls
      rw [hcall, hfalse]
      exact Bool.false_ne_true
    · obtain rfl : r = true := hok.2 hstuck
      obtain ⟨hopen'', hlegal''⟩ := hnext hstuck
      have hrest : ∀ l, cfg.readCalls s (arrivals :: l) = cfg.readCalls s' l := by
        intro l
        rw [ReadConfig.readCalls, hcall]
      rw [hrest, ih hinv hopen'' hcalls hlegal'']
      constructor
      · intro h n hn
        cases n with
        | zero => exact hstuck
        | succ n =>
          rw [List.take_succ_cons, hrest]
          exact h n (Nat.lt_of_succ_lt_succ hn)
      · intro h n hn
        have hsucc := h (n + 1) (Nat.succ_lt_succ hn)
        rw [List.take_succ_cons, hrest] at hsucc
        exact hsucc

end Reader

/-- **Which cuts matter.** As long as the connection is open, no data segment is too long and the
PDUs are processed, all calls succeed exactly if none begins between a data segment and its digest.
-/
theorem readCalls_iff {cfg : ReadConfig} (hvectors : ∀ hdr, cfg.vectors hdr ≠ .short)
    (hhandle : ∀ l, cfg.handle l ≠ none) {calls : List (List Arrival)}
    (hopen : ∀ arrivals ∈ calls, Open arrivals) (hlegal : Legal cfg (streamOf calls.flatten)) :
    (cfg.readCalls {} calls).1 = true ↔
      ∀ n < calls.length, ¬cfg.Stuck (cfg.readCalls {} (calls.take n)).2.incoming :=
  (Reader.inv_new []).readCalls_ok (List.forall_mem_nil _) hvectors hhandle hopen hlegal

/-- A header of two calls, and the first of them alone. -/
theorem readCalls_iff_header : (plainReader.readCalls {}
    [restOf (List.replicate 20 0), restOf (List.replicate 28 0)]).1 = true ↔
      ∀ n < 2, ¬plainReader.Stuck (plainReader.readCalls {}
        ([restOf (List.replicate 20 0), restOf (List.replicate 28 0)].take n)).2.incoming := by
  have hopen : ∀ arrivals ∈ [restOf (List.replicate 20 0), restOf (List.replicate 28 0)],
      Open arrivals := by
    intro arrivals harrivals
    rcases List.mem_cons.1 harrivals with rfl | hrest
    · exact open_restOf _
    · rw [List.mem_singleton.1 hrest]
      exact open_restOf _
  refine readCalls_iff (fun _ h => by cases h) (fun _ h => by cases h) hopen ?_
  exact .frame (by decide) (by decide) (.short (by decide))

/-- With a data digest: four bytes of data in one call, and their digest in the next. -/
example : ({ plainReader with dataDigest := .crc32c }.readCalls {}
    [restOf ([0, 0, 0, 0, 0, 0, 0, 4] ++ List.replicate 44 0), restOf [0, 0, 0, 0]]).1 = false := by
  decide +kernel

end Libiscsi
