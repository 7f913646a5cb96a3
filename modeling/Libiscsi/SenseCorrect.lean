import Libiscsi.SenseReads

/-!
# Sense data in the two formats

Sense data in the descriptor format are a header and descriptors, each a type, an additional
length and as many bytes (`SenseDescriptor`). `parse_sense_descriptors` goes from one to the next
by the additional length, two bytes less than the descriptor has. So the second descriptor is not
visited, and of a single one the last two bytes are taken for another header
(`descriptors_faithful_iff`). The same information in the fixed format is compared in
`formats_agree_iff`.
-/

namespace Libiscsi

/-! ## Descriptors -/

/-- A sense data descriptor. -/
structure SenseDescriptor where
  kind : UInt8
  body : List UInt8
  body_lt : body.length < 256

namespace SenseDescriptor

/-- The bytes of a descriptor: the type, the additional length, and the rest. -/
def bytes (d : SenseDescriptor) : List UInt8 := d.kind :: UInt8.ofNat d.body.length :: d.body

@[simp] theorem length_bytes (d : SenseDescriptor) : d.bytes.length = d.body.length + 2 := rfl

/-- The last two bytes of the descriptor look like the start of an information descriptor or of a
sense key specific one. -/
def EndsLikeHeader (d : SenseDescriptor) : Prop :=
  4 ≤ d.body.length ∧
    (byte d.bytes d.body.length = 0 ∧ byte d.bytes (d.body.length + 1) = 0x0a ∨
      byte d.bytes d.body.length = 2 ∧ byte d.bytes (d.body.length + 1) = 0x06)

end SenseDescriptor

/-- Descriptors that the additional sense length can count. -/
structure SenseDescriptors where
  list : List SenseDescriptor
  fits : (list.flatMap (·.bytes)).length < 256

/-- The bytes of the descriptors. -/
def SenseDescriptors.bytes (ds : SenseDescriptors) : List UInt8 := ds.list.flatMap (·.bytes)

/-- What the sense data say besides the descriptors. -/
structure SenseHeader where
  deferred : Bool
  key : UInt8
  asc : UInt8
  ascq : UInt8

/-- Sense data in the descriptor format. -/
def descriptorSense (h : SenseHeader) (ds : SenseDescriptors) : List UInt8 :=
  [if h.deferred then 0x73 else 0x72, h.key, h.asc, h.ascq, 0, 0, 0,
    UInt8.ofNat ds.bytes.length] ++ ds.bytes

/-- Where the descriptors begin, the first of them at `p`. -/
def descriptorStarts : Nat → List SenseDescriptor → List Nat
  | _, [] => []
  | p, d :: ds => p :: descriptorStarts (p + d.bytes.length) ds

/-- The sense data before the descriptors are parsed. -/
def SenseHeader.start (h : SenseHeader) (sense : ScsiSense) : ScsiSense :=
  { sense with
    errorType := if h.deferred then 0x73 else 0x72
    key := h.key &&& 0x0f
    ascq := scsiGetUint16 [h.asc, h.ascq] 0 }

/-- The descriptors are parsed one after the other, each by itself. -/
def foldDescriptors (sense : ScsiSense) (ds : SenseDescriptors) : ScsiSense :=
  ds.list.foldl (fun sense d => parseSenseDescriptor sense d.bytes 0) sense

/-- The result is that of the descriptors one after the other, nothing beyond them is read, and
each of them is visited exactly once. -/
def DescriptorsFaithful (h : SenseHeader) (ds : SenseDescriptors) : Prop :=
  (∀ i ∈ senseReads (descriptorSense h ds), i < (descriptorSense h ds).length) ∧
    (∀ sense, scsiParseSenseData sense (descriptorSense h ds) =
      foldDescriptors (h.start sense) ds) ∧
    ∀ p ∈ descriptorStarts 8 ds.list,
      (descriptorVisits (descriptorSense h ds)).count p = 1

section
variable {h : SenseHeader} {ds : SenseDescriptors}

theorem length_descriptorSense : (descriptorSense h ds).length = 8 + ds.bytes.length := by
  simp only [descriptorSense, List.length_append, List.length_cons, List.length_nil]

/-- The bytes after the header. -/
theorem byte_descriptorSense (i : Nat) :
    byte (descriptorSense h ds) (8 + i) = byte ds.bytes i := by
  unfold byte descriptorSense
  rw [List.getD_append_right _ _ _ _ (by simp)]
  simp

theorem toNat_descriptorSense : (byte (descriptorSense h ds) 7).toNat = ds.bytes.length := by
  change (UInt8.ofNat ds.bytes.length).toNat = _
  rw [UInt8.toNat_ofNat']
  exact Nat.mod_eq_of_lt ds.fits

theorem senseLimit_descriptorSense :
    senseLimit (descriptorSense h ds) = 8 + ds.bytes.length := by
  rw [senseLimit, toNat_descriptorSense]

theorem responseCode_descriptorSense :
    byte (descriptorSense h ds) 0 &&& 0x7f = if h.deferred then 0x73 else 0x72 := by
  change (if h.deferred then 0x73 else 0x72 : UInt8) &&& 0x7f = _
  split <;> rfl

theorem descriptorFormat_descriptorSense (h : SenseHeader) (ds : SenseDescriptors) :
    ¬fixedFormat (descriptorSense h ds) ∧ descriptorFormat (descriptorSense h ds) := by
  unfold fixedFormat descriptorFormat
  rw [responseCode_descriptorSense]
  cases h.deferred <;> decide

/-- The header is parsed. -/
theorem scsiParseSenseData_descriptorSense (sense : ScsiSense) :
    scsiParseSenseData sense (descriptorSense h ds) =
      parseSenseDescriptors ds.bytes.length (h.start sense) (descriptorSense h ds) 8
        (8 + ds.bytes.length) := by
  obtain ⟨hfixed, hdesc⟩ := descriptorFormat_descriptorSense h ds
  rw [scsiParseSenseData_descriptors sense hfixed hdesc, toNat_descriptorSense,
    senseLimit_descriptorSense]
  have hascq : scsiGetUint16 (descriptorSense h ds) 2 = scsiGetUint16 [h.asc, h.ascq] 0 :=
    scsiGetUint16_congr rfl rfl
  have hkey : byte (descriptorSense h ds) 1 = h.key := rfl
  rw [hascq, responseCode_descriptorSense, hkey, SenseHeader.start]

/-- A descriptor is parsed from its bytes, wherever they are. -/
theorem parseSenseDescriptor_shift {sb sb' : List UInt8} {p : Nat} (sense : ScsiSense)
    (h : ∀ i, byte sb (p + i) = byte sb' i) :
    parseSenseDescriptor sense sb p = parseSenseDescriptor sense sb' 0 := by
  have h₀ : byte sb p = byte sb' 0 := h 0
  have h32 : ∀ i, scsiGetUint32 sb (p + i) = scsiGetUint32 sb' i := fun i => by
    unfold scsiGetUint32
    simp only [Nat.add_assoc, h]
  have h16 : ∀ i, scsiGetUint16 sb (p + i) = scsiGetUint16 sb' i := fun i => by
    unfold scsiGetUint16
    simp only [Nat.add_assoc, h]
  unfold parseSenseDescriptor parseSenseSpec
  simp only [h₀, h, h32, Nat.add_assoc, h16, Nat.zero_add]

/-- What looks like no header of either kind has no effect. -/
theorem parseSenseDescriptor_other {sb : List UInt8} {p : Nat} (sense : ScsiSense)
    (h₀ : ¬(byte sb p = 0 ∧ byte sb (p + 1) = 0x0a))
    (h₂ : ¬(byte sb p = 2 ∧ byte sb (p + 1) = 0x06)) :
    parseSenseDescriptor sense sb p = sense := by
  unfold parseSenseDescriptor
  split
  · rename_i hkind
    exact if_neg fun hc => h₀ ⟨hkind, hc.1⟩
  · split
    · rename_i hkind
      exact if_neg fun hc => h₂ ⟨hkind, hc⟩
    · rfl

/-- A descriptor that is too short to be looked at has no effect. -/
theorem parseSenseDescriptor_short {sb : List UInt8} {p : Nat} (sense : ScsiSense)
    (h : byte sb (p + 1) < 4) : parseSenseDescriptor sense sb p = sense :=
  parseSenseDescriptor_other sense (fun hc => absurd h (by rw [hc.2]; decide))
    (fun hc => absurd h (by rw [hc.2]; decide))

/-- What looks like no header of either kind is read up to the additional length. -/
theorem descriptorNeeds_other {sb : List UInt8} {p : Nat}
    (h₀ : ¬(byte sb p = 0 ∧ byte sb (p + 1) = 0x0a))
    (h₂ : ¬(byte sb p = 2 ∧ byte sb (p + 1) = 0x06)) : descriptorNeeds sb p = p + 2 := by
  unfold descriptorNeeds
  split
  · rfl
  · split
    · rename_i hkind
      exact if_neg fun hc => h₀ ⟨hkind, hc⟩
    · split
      · rename_i hkind
        exact if_neg fun hc => h₂ ⟨hkind, hc⟩
      · rfl

/-- What looks like a header is read beyond the additional length. -/
theorem lt_descriptorNeeds (sb : List UInt8) (p : Nat)
    (h : byte sb p = 0 ∧ byte sb (p + 1) = 0x0a ∨ byte sb p = 2 ∧ byte sb (p + 1) = 0x06) :
    p + 2 < descriptorNeeds sb p := by
  unfold descriptorNeeds senseSpecNeeds
  rcases h with ⟨hkind, hsize⟩ | ⟨hkind, hsize⟩
  · rw [hkind, hsize, if_neg (by decide), if_pos rfl, if_pos rfl]
    split <;> omega
  · rw [hkind, hsize, if_neg (by decide), if_neg (by decide), if_pos rfl, if_pos rfl]
    split <;> omega

end

/-! ## The walk as a fold -/

section
variable {sb : List UInt8} {p limit fuel : Nat}

/-- **The descriptors are parsed at the positions that are visited.** -/
theorem parseSenseDescriptors_eq (fuel : Nat) (sense : ScsiSense) (sb : List UInt8)
    (p limit : Nat) : parseSenseDescriptors fuel sense sb p limit =
      (senseVisits fuel sb p limit).foldl (fun s v => parseSenseDescriptor s sb v) sense := by
  induction fuel generalizing sense p with
  | zero => rfl
  | succ fuel ih =>
    rw [parseSenseDescriptors, senseVisits]
    split
    · split
      · rename_i hlen
        exact (parseSenseDescriptor_short sense hlen).symm
      · rw [List.foldl_cons, ih]
    · rfl

/-- What is visited after the first position lies behind it. -/
theorem senseVisits_head (sb : List UInt8) (hfuel : limit ≤ p + fuel) (hlt : p < limit) :
    ∃ rest, senseVisits fuel sb p limit = p :: rest ∧ p ∉ rest := by
  obtain ⟨fuel, rfl⟩ : ∃ k, fuel = k + 1 := ⟨fuel - 1, by omega⟩
  rw [senseVisits, if_pos hlt]
  refine ⟨_, rfl, ?_⟩
  split
  · exact List.not_mem_nil
  · rename_i hlen
    have hpass := WalkStep.lt ⟨hlt, hlen, rfl⟩
    intro hmem
    have := ((mem_senseVisits (by omega)).1 hmem).1.le
    omega

/-- Only the first position that is visited has an effect. -/
theorem parseSenseDescriptors_first (hfuel : limit ≤ p + fuel) (hlt : p < limit)
    (hnone : ∀ v, Walks sb limit p v → v < limit → v ≠ p →
      ∀ s, parseSenseDescriptor s sb v = s) (sense : ScsiSense) :
    parseSenseDescriptors fuel sense sb p limit = parseSenseDescriptor sense sb p := by
  obtain ⟨rest, hvisits, hnot⟩ := senseVisits_head sb hfuel hlt
  rw [parseSenseDescriptors_eq, hvisits, List.foldl_cons]
  have hrest : ∀ v ∈ rest, ∀ s, parseSenseDescriptor s sb v = s := fun v hv => by
    obtain ⟨hwalk, hv'⟩ := (mem_senseVisits hfuel).1 (hvisits ▸ List.mem_cons_of_mem p hv)
    exact hnone v hwalk hv' fun hc => hnot (hc ▸ hv)
  clear hvisits hnot
  induction rest with
  | nil => rfl
  | cons v rest ih =>
    rw [List.foldl_cons, hrest v (by simp)]
    exact ih fun u hu => hrest u (List.mem_cons_of_mem v hu)

end

/-! ## A single descriptor -/

section
variable {h : SenseHeader} {ds : SenseDescriptors} {d : SenseDescriptor}

theorem bytes_single (hds : ds.list = [d]) : ds.bytes = d.bytes := by
  rw [SenseDescriptors.bytes, hds, List.flatMap_cons, List.flatMap_nil, List.append_nil]

/-- The additional length of the first descriptor. -/
theorem toNat_firstLength {rest : List SenseDescriptor} (hds : ds.list = d :: rest) :
    (byte (descriptorSense h ds) 9).toNat = d.body.length := by
  rw [byte_descriptorSense 1, SenseDescriptors.bytes, hds]
  change (UInt8.ofNat d.body.length).toNat = _
  rw [UInt8.toNat_ofNat']
  exact Nat.mod_eq_of_lt d.body_lt

/-- The loop goes on after the first descriptor. -/
theorem firstLength_lt_iff {rest : List SenseDescriptor} (hds : ds.list = d :: rest) :
    byte (descriptorSense h ds) 9 < 4 ↔ d.body.length < 4 := by
  rw [UInt8.lt_iff_toNat_lt, toNat_firstLength hds]
  rfl

/-- The descriptor is parsed where it is. -/
theorem parseSenseDescriptor_single (hds : ds.list = [d]) (sense : ScsiSense) :
    parseSenseDescriptor sense (descriptorSense h ds) 8 = parseSenseDescriptor sense d.bytes 0 :=
  parseSenseDescriptor_shift sense fun i => by rw [byte_descriptorSense, bytes_single hds]

/-- A descriptor is not read beyond its end. -/
theorem descriptorNeeds_first (ds : SenseDescriptors) {rest : List SenseDescriptor}
    (hds : ds.list = d :: rest) :
    descriptorNeeds (descriptorSense h ds) 8 ≤ 8 + d.bytes.length := by
  have hlen := toNat_firstLength (h := h) hds
  rw [SenseDescriptor.length_bytes]
  unfold descriptorNeeds senseSpecNeeds
  split
  · omega
  · split
    · split
      · rename_i hsize
        rw [hsize] at hlen
        have hten : (0x0a : UInt8).toNat = 10 := rfl
        split <;> omega
      · omega
    · split
      · split
        · rename_i hsize
          rw [hsize] at hlen
          have hsix : (0x06 : UInt8).toNat = 6 := rfl
          split <;> omega
        · omega
      · omega

/-- The walk over a single descriptor comes to it, and to its last two bytes if it is not too short
to be looked at. -/
theorem walks_single (hds : ds.list = [d]) {p : Nat}
    (hwalk : Walks (descriptorSense h ds) (senseLimit (descriptorSense h ds)) 8 p)
    (hlt : p < senseLimit (descriptorSense h ds)) :
    p = 8 ∨ 4 ≤ d.body.length ∧ p = 8 + d.body.length := by
  have hlimit : senseLimit (descriptorSense h ds) = 8 + (d.body.length + 2) := by
    rw [senseLimit_descriptorSense, bytes_single hds, SenseDescriptor.length_bytes]
  rcases Relation.ReflTransGen.cases_head hwalk with rfl | ⟨q, hstep, hrest⟩
  · exact .inl rfl
  · obtain ⟨_, hlen, rfl⟩ := hstep
    rw [toNat_firstLength hds] at hrest
    have hfour : 4 ≤ d.body.length := by
      have := (firstLength_lt_iff (h := h) hds).not.1 hlen
      omega
    refine .inr ⟨hfour, ?_⟩
    rcases Relation.ReflTransGen.cases_head hrest with rfl | ⟨q', hstep', hrest'⟩
    · rfl
    · have := hstep'.lt
      have := Walks.le hrest'
      omega

/-- The second descriptor is never visited. -/
theorem second_notMem {d₂ : SenseDescriptor} {rest : List SenseDescriptor}
    (hds : ds.list = d :: d₂ :: rest) :
    8 + d.bytes.length ∉ descriptorVisits (descriptorSense h ds) := by
  intro hmem
  obtain ⟨hwalk, -⟩ := mem_descriptorVisits.1 hmem
  rw [SenseDescriptor.length_bytes] at hwalk
  rcases Relation.ReflTransGen.cases_head hwalk with hc | ⟨q, ⟨_, _, rfl⟩, hrest⟩
  · omega
  · rw [toNat_firstLength hds] at hrest
    rcases Relation.ReflTransGen.cases_head hrest with hc | ⟨q', hstep', hrest'⟩
    · omega
    · have := hstep'.lt
      have := Walks.le hrest'
      omega

/-- A single descriptor that does not end like a header is parsed as it should be. -/
theorem descriptorsFaithful_single (hds : ds.list = [d]) (hend : ¬d.EndsLikeHeader) :
    DescriptorsFaithful h ds := by
  have hbytes := bytes_single hds
  have hlength : ds.bytes.length = d.body.length + 2 := by
    rw [hbytes, SenseDescriptor.length_bytes]
  have hshift := fun i => (byte_descriptorSense i :
      byte (descriptorSense h ds) (8 + i) = byte ds.bytes i).trans
    (congrArg (byte · i) hbytes)
  have htail : ∀ p, 4 ≤ d.body.length ∧ p = 8 + d.body.length →
      ¬(byte (descriptorSense h ds) p = 0 ∧ byte (descriptorSense h ds) (p + 1) = 0x0a) ∧
        ¬(byte (descriptorSense h ds) p = 2 ∧ byte (descriptorSense h ds) (p + 1) = 0x06) := by
    rintro p ⟨hfour, rfl⟩
    rw [Nat.add_assoc, hshift, hshift]
    exact ⟨fun hc => hend ⟨hfour, .inl hc⟩, fun hc => hend ⟨hfour, .inr hc⟩⟩
  obtain ⟨hfixed, hdesc⟩ := descriptorFormat_descriptorSense h ds
  have hlimit : senseLimit (descriptorSense h ds) = 8 + ds.bytes.length :=
    senseLimit_descriptorSense
  refine ⟨?_, fun sense => ?_, fun p hp => ?_⟩
  · rw [senseReads_lt, SenseFits, if_neg hfixed, if_pos hdesc, length_descriptorSense]
    refine ⟨by omega, fun p hwalk hlt => ?_⟩
    rcases walks_single hds hwalk hlt with rfl | htwo
    · rw [hbytes]
      exact descriptorNeeds_first ds hds
    · rw [descriptorNeeds_other (htail p htwo).1 (htail p htwo).2]
      omega
  · rw [scsiParseSenseData_descriptorSense, foldDescriptors, hds, List.foldl_cons, List.foldl_nil,
      ← parseSenseDescriptor_single (h := h) hds]
    refine parseSenseDescriptors_first le_rfl (by omega) (fun v hwalk hlt hne s => ?_) _
    rw [← hlimit] at hwalk hlt
    have htwo := (walks_single hds hwalk hlt).resolve_left hne
    exact parseSenseDescriptor_other s (htail v htwo).1 (htail v htwo).2
  · rw [hds] at hp
    obtain rfl : p = 8 := List.mem_singleton.1 hp
    obtain ⟨rest, hvisits, hnot⟩ := senseVisits_head (descriptorSense h ds)
      (le_rfl : senseLimit (descriptorSense h ds) ≤ 8 + (byte (descriptorSense h ds) 7).toNat)
      (by omega)
    rw [descriptorVisits, hvisits, List.count_cons_self, List.count_eq_zero_of_not_mem hnot]

/-- Without descriptors there is only the header. -/
theorem descriptorsFaithful_nil (hds : ds.list = []) : DescriptorsFaithful h ds := by
  have hbytes : ds.bytes = [] := by rw [SenseDescriptors.bytes, hds, List.flatMap_nil]
  have hlength : ds.bytes.length = 0 := by rw [hbytes, List.length_nil]
  obtain ⟨hfixed, hdesc⟩ := descriptorFormat_descriptorSense h ds
  refine ⟨?_, fun sense => ?_, fun p hp => ?_⟩
  · rw [senseReads_lt, SenseFits, if_neg hfixed, if_pos hdesc, length_descriptorSense,
      senseLimit_descriptorSense]
    refine ⟨by omega, fun p hwalk hlt => ?_⟩
    have := hwalk.le
    omega
  · rw [scsiParseSenseData_descriptorSense, hlength, foldDescriptors, hds]
    rfl
  · rw [hds] at hp
    cases hp

/-- **The descriptors are parsed at their true boundaries** exactly if there are none, or a single
one whose last two bytes do not look like a header. -/
theorem descriptors_faithful_iff : DescriptorsFaithful h ds ↔
    ds.list = [] ∨ ∃ d, ds.list = [d] ∧ ¬d.EndsLikeHeader := by
  constructor
  · rintro ⟨hreads, -, hvisits⟩
    rcases hds : ds.list with _ | ⟨d, _ | ⟨d₂, rest⟩⟩
    · exact .inl rfl
    · refine .inr ⟨d, rfl, fun hend => ?_⟩
      obtain ⟨hfixed, hdesc⟩ := descriptorFormat_descriptorSense h ds
      have hbytes := bytes_single hds
      have hlength : ds.bytes.length = d.body.length + 2 := by
        rw [hbytes, SenseDescriptor.length_bytes]
      have hlimit : senseLimit (descriptorSense h ds) = 8 + ds.bytes.length :=
        senseLimit_descriptorSense
      rw [senseReads_lt, SenseFits, if_neg hfixed, if_pos hdesc, length_descriptorSense] at hreads
      have hlen : ¬byte (descriptorSense h ds) 9 < 4 := by
        have := hend.1
        rw [firstLength_lt_iff hds]
        omega
      have hstep : WalkStep (descriptorSense h ds) (senseLimit (descriptorSense h ds)) 8
          (8 + d.body.length) := ⟨by omega, hlen, by rw [toNat_firstLength hds]⟩
      have hneeds := hreads.2 _ (.single hstep) (by omega)
      have hlt := lt_descriptorNeeds (descriptorSense h ds) (8 + d.body.length) (by
        rw [Nat.add_assoc, byte_descriptorSense, byte_descriptorSense, hbytes]
        exact hend.2)
      omega
    · have hone := hvisits (8 + d.bytes.length) (by simp [hds, descriptorStarts])
      have hpos : 0 < (descriptorVisits (descriptorSense h ds)).count (8 + d.bytes.length) := by
        rw [hone]
        exact Nat.one_pos
      exact absurd (List.count_pos_iff.1 hpos) (second_notMem hds)
  · rintro (hds | ⟨d, hds, hend⟩)
    · exact descriptorsFaithful_nil hds
    · exact descriptorsFaithful_single hds hend

end

/-! ## The two formats -/

/-- The information of sense data: a number of 32 bits, and a sense key specific field that is
valid. -/
structure SenseInfo extends SenseHeader where
  information : UInt32
  spec0 : UInt8
  spec1 : UInt8
  spec2 : UInt8
  valid : spec0 &&& 0x80 ≠ 0

namespace SenseInfo

/-- The four bytes of the information. -/
def informationBytes (x : SenseInfo) : List UInt8 :=
  [(x.information >>> 24).toUInt8, (x.information >>> 16).toUInt8,
    (x.information >>> 8).toUInt8, x.information.toUInt8]

/-- The fixed format. -/
def fixed (x : SenseInfo) : List UInt8 :=
  [if x.deferred then 0xf1 else 0xf0, 0, x.key] ++ x.informationBytes ++
    [10, 0, 0, 0, 0, x.asc, x.ascq, 0, x.spec0, x.spec1, x.spec2]

/-- The information descriptor. -/
def informationDescriptor (x : SenseInfo) : SenseDescriptor where
  kind := 0
  body := [0x80, 0, 0, 0, 0, 0] ++ x.informationBytes
  body_lt := by simp [informationBytes]

/-- The sense key specific descriptor. -/
def specDescriptor (x : SenseInfo) : SenseDescriptor where
  kind := 2
  body := [0, 0, x.spec0, x.spec1, x.spec2, 0]
  body_lt := by simp

/-- Both descriptors, in one order or the other. -/
def descriptors (x : SenseInfo) (specFirst : Bool) : SenseDescriptors where
  list := if specFirst then [x.specDescriptor, x.informationDescriptor]
    else [x.informationDescriptor, x.specDescriptor]
  fits := by
    cases specFirst
    · exact Nat.lt_of_lt_of_le (by decide : 20 < 256) le_rfl
    · exact Nat.lt_of_lt_of_le (by decide : 20 < 256) le_rfl

end SenseInfo

/-- The sense data of both formats are parsed within themselves and say the same. -/
def FormatsAgree (x : SenseInfo) (specFirst : Bool) (sense : ScsiSense) : Prop :=
  let f := x.fixed
  let d := descriptorSense x.toSenseHeader (x.descriptors specFirst)
  ((∀ i ∈ senseReads f, i < f.length) ∧ ∀ i ∈ senseReads d, i < d.length) ∧
    (scsiParseSenseData sense f).key = (scsiParseSenseData sense d).key ∧
    (scsiParseSenseData sense f).ascq = (scsiParseSenseData sense d).ascq ∧
    (scsiParseSenseData sense f).information = (scsiParseSenseData sense d).information ∧
    (scsiParseSenseData sense f).fieldPointer = (scsiParseSenseData sense d).fieldPointer

section
variable {x : SenseInfo} {sense : ScsiSense}

/-- A byte with its highest bit set is not small. -/
theorem le_toNat_of_and_ne_zero {b : UInt8} (h : b &&& 0x80 ≠ 0) : 128 ≤ b.toNat := by
  have hall : ∀ i : Fin 256, UInt8.ofNat i.val &&& 0x80 ≠ 0 → 128 ≤ i.val := by
    decide +kernel
  exact hall ⟨b.toNat, b.toNat_lt⟩ (by simpa using h)

/-- A valid sense key specific field gives the field pointer, and leaves alone what else is
compared. -/
theorem parseSenseSpec_valid (sense : ScsiSense) {sb : List UInt8} {i : Nat}
    (h : byte sb i &&& 0x80 ≠ 0) :
    (parseSenseSpec sense sb i).key = sense.key ∧
      (parseSenseSpec sense sb i).ascq = sense.ascq ∧
      (parseSenseSpec sense sb i).information = sense.information ∧
      (parseSenseSpec sense sb i).fieldPointer = scsiGetUint16 sb (i + 1) := by
  unfold parseSenseSpec
  rw [if_neg h]
  dsimp only
  split <;> exact ⟨rfl, rfl, rfl, rfl⟩

/-- The information is read back. -/
theorem scsiGetUint32_informationBytes {sb : List UInt8} {i : Nat}
    (h : ∀ k < 4, byte sb (i + k) = byte x.informationBytes k) :
    scsiGetUint32 sb i = x.information := by
  have hset : x.informationBytes = scsiSetUint32 [0, 0, 0, 0] 0 x.information := rfl
  rw [← scsiGetUint32_set (c := [0, 0, 0, 0]) (i := 0) (v := x.information) (by simp), ← hset]
  exact scsiGetUint32_congr fun k hk => by rw [h k hk, Nat.zero_add]

/-- What the fixed format says. -/
theorem parse_fixed (x : SenseInfo) (sense : ScsiSense) :
    (∀ i ∈ senseReads x.fixed, i < x.fixed.length) ∧
      (scsiParseSenseData sense x.fixed).key = x.key &&& 0x0f ∧
      (scsiParseSenseData sense x.fixed).ascq = scsiGetUint16 [x.asc, x.ascq] 0 ∧
      (scsiParseSenseData sense x.fixed).information = x.information.toNat ∧
      (scsiParseSenseData sense x.fixed).fieldPointer = scsiGetUint16 [x.spec1, x.spec2] 0 := by
  have hcode : byte x.fixed 0 &&& 0x7f = if x.deferred then 0x71 else 0x70 := by
    change (if x.deferred then 0xf1 else 0xf0 : UInt8) &&& 0x7f = _
    split <;> rfl
  have hvalid : byte x.fixed 0 &&& 0x80 ≠ 0 := by
    change (if x.deferred then 0xf1 else 0xf0 : UInt8) &&& 0x80 ≠ 0
    split <;> decide
  have hfixed : fixedFormat x.fixed := by
    unfold fixedFormat
    rw [hcode]
    cases x.deferred <;> decide
  have hspec : byte x.fixed 15 &&& 0x80 ≠ 0 := x.valid
  have hinfo : scsiGetUint32 x.fixed 3 = x.information :=
    scsiGetUint32_informationBytes fun k hk => by interval_cases k <;> rfl
  refine ⟨?_, ?_⟩
  · rw [senseReads_lt, SenseFits, if_pos hfixed, senseSpecNeeds, if_neg hspec]
    exact le_rfl
  · rw [scsiParseSenseData_fixed sense hfixed, ScsiSense.withInformation, if_pos hvalid, hinfo]
    obtain ⟨hkey, hascq, hinformation, hpointer⟩ := parseSenseSpec_valid
      { sense with
        errorType := byte x.fixed 0 &&& 0x7f
        key := byte x.fixed 2 &&& 0x0f
        infoValid := true
        information := x.information.toNat
        ascq := scsiGetUint16 x.fixed 12 } hspec
    exact ⟨hkey, hascq.trans (scsiGetUint16_congr rfl rfl), hinformation,
      hpointer.trans (scsiGetUint16_congr rfl rfl)⟩

/-- What looks like a header whose fields are not valid has no effect. -/
theorem parseSenseDescriptor_invalid (sense : ScsiSense) {sb : List UInt8} {p : Nat}
    (hinfo : byte sb (p + 2) &&& 0x80 = 0) (hspec : byte sb (p + 4) &&& 0x80 = 0) :
    parseSenseDescriptor sense sb p = sense ∧ descriptorNeeds sb p ≤ p + 5 := by
  unfold parseSenseDescriptor descriptorNeeds parseSenseSpec senseSpecNeeds
  simp only [hinfo, hspec, ne_eq, not_true_eq_false, and_false, if_false, if_true, ite_self,
    true_and]
  split_ifs <;> omega

/-- The result of descriptors of which only the first has an effect. -/
theorem parse_first {h : SenseHeader} (ds : SenseDescriptors) (hlen : 0 < ds.bytes.length)
    (hnone : ∀ v, Walks (descriptorSense h ds) (senseLimit (descriptorSense h ds)) 8 v →
      v < senseLimit (descriptorSense h ds) → v ≠ 8 →
      ∀ s, parseSenseDescriptor s (descriptorSense h ds) v = s) (sense : ScsiSense) :
    scsiParseSenseData sense (descriptorSense h ds) =
      parseSenseDescriptor (h.start sense) (descriptorSense h ds) 8 := by
  rw [senseLimit_descriptorSense] at hnone
  rw [scsiParseSenseData_descriptorSense]
  exact parseSenseDescriptors_first le_rfl (by omega) hnone _

/-! ### The information descriptor first -/

/-- The positions that are visited when the information comes first: the two descriptors' places as
the code takes them, and one more that the last byte of the information decides. -/
theorem walks_informationFirst {v : Nat}
    (hwalk : Walks (descriptorSense x.toSenseHeader (x.descriptors false)) 28 8 v)
    (hlt : v < 28) :
    v = 8 ∨ v = 18 ∨ 4 ≤ x.information.toUInt8.toNat ∧ v = 18 + x.information.toUInt8.toNat := by
  set sb := descriptorSense x.toSenseHeader (x.descriptors false) with hsb
  set n := x.information.toUInt8.toNat with hn
  rcases Relation.ReflTransGen.cases_head hwalk with rfl | ⟨q, ⟨_, _, hq⟩, hrest⟩
  · exact .inl rfl
  · obtain rfl : q = 18 := hq
    rcases Relation.ReflTransGen.cases_head hrest with rfl | ⟨q, hstep, hrest⟩
    · exact .inr (.inl rfl)
    · have hpass := hstep.lt
      obtain ⟨_, _, hq⟩ := hstep
      obtain rfl : q = 18 + n := hq
      refine .inr (.inr ⟨by omega, ?_⟩)
      rcases Relation.ReflTransGen.cases_head hrest with rfl | ⟨q', hstep', hrest'⟩
      · rfl
      · -- only a step of four or five bytes leaves room for another one
        have hpass' := hstep'.lt
        have hle := Walks.le hrest'
        obtain ⟨_, hlen, hq'⟩ := hstep'
        have hfour : n = 4 ∨ n = 5 := by omega
        rcases hfour with h4 | h5
        · rw [h4] at hlen
          have hzero : byte sb (18 + 4 + 1) = 0 := rfl
          rw [hzero] at hlen
          exact absurd (by decide) hlen
        · rw [h5] at hq'
          have hspec : (byte sb (18 + 5 + 1)).toNat = x.spec0.toNat := rfl
          have := le_toNat_of_and_ne_zero x.valid
          omega

/-- What the third position needs, and that it has no effect. -/
theorem third_informationFirst {n : Nat} (hn : x.information.toUInt8.toNat = n) (hfour : 4 ≤ n)
    (hten : n < 10) :
    let sb := descriptorSense x.toSenseHeader (x.descriptors false)
    (descriptorNeeds sb (18 + n) ≤ 28 ↔ n ≠ 9 ∧ ¬(n = 7 ∧ x.spec1 = 2 ∧ x.spec2 = 6)) ∧
      ∀ s, parseSenseDescriptor s sb (18 + n) = s := by
  intro sb
  have hspec := le_toNat_of_and_ne_zero x.valid
  have hspec0 : x.spec0 ≠ 0 ∧ x.spec0 ≠ 2 ∧ x.spec0 ≠ 0x0a ∧ x.spec0 ≠ 0x06 := by
    refine ⟨?_, ?_, ?_, ?_⟩ <;>
    · intro hc
      rw [hc] at hspec
      exact absurd hspec (by decide)
  have hother : ∀ p, ¬(byte sb p = 0 ∧ byte sb (p + 1) = 0x0a) →
      ¬(byte sb p = 2 ∧ byte sb (p + 1) = 0x06) → p + 2 ≤ 28 →
      descriptorNeeds sb p ≤ 28 ∧ ∀ s, parseSenseDescriptor s sb p = s := fun p h₀ h₂ hp =>
    ⟨(descriptorNeeds_other h₀ h₂).trans_le hp, fun s => parseSenseDescriptor_other s h₀ h₂⟩
  have hzero : ∀ p, byte sb (p + 1) = 0 → ¬(byte sb p = 0 ∧ byte sb (p + 1) = 0x0a) ∧
      ¬(byte sb p = 2 ∧ byte sb (p + 1) = 0x06) := fun p hp => by
    rw [hp]
    exact ⟨fun hc => absurd hc.2 (by decide), fun hc => absurd hc.2 (by decide)⟩
  interval_cases n
  · obtain ⟨hneeds, heffect⟩ := hother 22 (hzero 22 rfl).1 (hzero 22 rfl).2 (by omega)
    exact ⟨iff_of_true hneeds ⟨by decide, fun hc => absurd hc.1 (by decide)⟩, heffect⟩
  · obtain ⟨hneeds, heffect⟩ := hother 23 (fun hc => hspec0.2.2.1 hc.2)
      (fun hc => hspec0.2.2.2 hc.2) (by omega)
    exact ⟨iff_of_true hneeds ⟨by decide, fun hc => absurd hc.1 (by decide)⟩, heffect⟩
  · obtain ⟨hneeds, heffect⟩ := hother 24 (fun hc => hspec0.1 hc.1)
      (fun hc => hspec0.2.1 hc.1) (by omega)
    exact ⟨iff_of_true hneeds ⟨by decide, fun hc => absurd hc.1 (by decide)⟩, heffect⟩
  · change (descriptorNeeds sb 25 ≤ 28 ↔ _) ∧ ∀ s, parseSenseDescriptor s sb 25 = s
    have h27 : byte sb (25 + 2) &&& 0x80 = 0 := by
      rw [show byte sb (25 + 2) = 0 from rfl]
      rfl
    have h29 : byte sb (25 + 4) &&& 0x80 = 0 := by
      rw [show byte sb (25 + 4) = 0 from rfl]
      rfl
    refine ⟨?_, fun s => (parseSenseDescriptor_invalid _ h27 h29).1⟩
    by_cases htrap : x.spec1 = 2 ∧ x.spec2 = 6
    · have hneeds : 25 + 5 ≤ descriptorNeeds sb 25 := by
        unfold descriptorNeeds senseSpecNeeds
        rw [show byte sb (25 + 1) = 6 from htrap.2, show byte sb 25 = 2 from htrap.1,
          if_neg (by decide), if_neg (by decide), if_pos rfl, if_pos rfl, if_pos h29]
      exact iff_of_false (by omega) fun hc => hc.2 ⟨rfl, htrap⟩
    · refine iff_of_true ?_ ⟨by decide, fun hc => htrap hc.2⟩
      by_cases hkind : byte sb 25 = 0 ∧ byte sb (25 + 1) = 0x0a
      · have hneeds : descriptorNeeds sb 25 = 25 + 3 := by
          unfold descriptorNeeds
          rw [hkind.2, hkind.1, if_neg (by decide), if_pos rfl, if_pos rfl, if_neg (not_not.2 h27)]
        omega
      · exact (hother 25 hkind htrap (by omega)).1
  · obtain ⟨hneeds, heffect⟩ := hother 26 (hzero 26 rfl).1 (hzero 26 rfl).2 (by omega)
    exact ⟨iff_of_true hneeds ⟨by decide, fun hc => absurd hc.1 (by decide)⟩, heffect⟩
  · change (descriptorNeeds sb 27 ≤ 28 ↔ _) ∧ ∀ s, parseSenseDescriptor s sb 27 = s
    obtain ⟨h₀, h₂⟩ := hzero 27 rfl
    refine ⟨iff_of_false ?_ fun hc => hc.1 rfl, fun s => parseSenseDescriptor_other s h₀ h₂⟩
    have hneeds := descriptorNeeds_other h₀ h₂
    omega

/-- **The information descriptor first**: the sense key specific one is not found. -/
theorem formatsAgree_informationFirst (x : SenseInfo) (sense : ScsiSense) :
    FormatsAgree x false sense ↔
      x.information.toUInt8 ≠ 9 ∧
        ¬(x.information.toUInt8 = 7 ∧ x.spec1 = 2 ∧ x.spec2 = 6) ∧
        scsiGetUint16 [x.spec1, x.spec2] 0 = sense.fieldPointer := by
  set sb := descriptorSense x.toSenseHeader (x.descriptors false) with hsb
  set n := x.information.toUInt8.toNat with hn
  have hlimit : senseLimit sb = 28 := senseLimit_descriptorSense
  have hlength : sb.length = 28 := length_descriptorSense
  obtain ⟨hfixed, hdesc⟩ := descriptorFormat_descriptorSense x.toSenseHeader
    (x.descriptors false)
  have h20 : byte sb (18 + 2) &&& 0x80 = 0 := by
    rw [show byte sb (18 + 2) = 2 from rfl]
    rfl
  have h22 : byte sb (18 + 4) &&& 0x80 = 0 := by
    rw [show byte sb (18 + 4) = 0 from rfl]
    rfl
  have hnine : x.information.toUInt8 ≠ 9 ↔ n ≠ 9 := by
    rw [Ne, ← UInt8.toNat_inj]
    rfl
  have hseven : x.information.toUInt8 = 7 ↔ n = 7 := by
    rw [← UInt8.toNat_inj]
    rfl
  -- the result is that of the information descriptor
  have hresult : scsiParseSenseData sense sb = { x.toSenseHeader.start sense with
      infoValid := true, information := x.information.toNat } := by
    rw [hsb, parse_first (x.descriptors false) (Nat.succ_pos 19)]
    · have hcongr : scsiGetUint32 sb (8 + 4) = scsiGetUint32 [0, 0, 0, 0] 0 :=
        scsiGetUint32_congr fun k hk => by interval_cases k <;> rfl
      have hzero : scsiGetUint32 sb (8 + 4) = 0 := hcongr.trans (by decide)
      have hinfo : scsiGetUint32 sb (8 + 8) = x.information :=
        scsiGetUint32_informationBytes fun k hk => by interval_cases k <;> rfl
      unfold parseSenseDescriptor
      rw [← hsb, show byte sb 8 = 0 from rfl, if_pos rfl, show byte sb (8 + 1) = 0x0a from rfl,
        show byte sb (8 + 2) = 0x80 from rfl, if_pos ⟨rfl, by decide⟩, hzero, hinfo]
      simp
    · intro v hwalk hlt hne s
      rw [← hsb, hlimit] at hwalk hlt
      rcases walks_informationFirst hwalk hlt with rfl | rfl | ⟨hfour, rfl⟩
      · exact absurd rfl hne
      · exact (parseSenseDescriptor_invalid _ h20 h22).1
      · exact (third_informationFirst rfl hfour (by omega)).2 s
  -- the reads stay within the data unless the last byte of the information leads astray
  have hreads : (∀ i ∈ senseReads sb, i < sb.length) ↔
      n ≠ 9 ∧ ¬(n = 7 ∧ x.spec1 = 2 ∧ x.spec2 = 6) := by
    rw [senseReads_lt, SenseFits, if_neg hfixed, if_pos hdesc, hlength, hlimit]
    constructor
    · rintro ⟨-, hall⟩
      by_cases hrange : 4 ≤ n ∧ n < 10
      · obtain ⟨hfour, hten⟩ := hrange
        refine (third_informationFirst rfl hfour hten).1.1 (hall _ ?_ (by omega))
        have hten : ¬byte sb (8 + 1) < 4 := by
          rw [show byte sb (8 + 1) = 0x0a from rfl]
          decide
        refine .tail (.single ⟨by decide, hten, rfl⟩ : Walks sb 28 8 18) ⟨by decide, ?_, rfl⟩
        intro hc
        have hlt : n < 4 := UInt8.lt_iff_toNat_lt.1 hc
        omega
      · omega
    · intro hok
      refine ⟨by decide, fun p hwalk hlt => ?_⟩
      rcases walks_informationFirst hwalk hlt with rfl | rfl | ⟨hfour, rfl⟩
      · exact (descriptorNeeds_first (x.descriptors false) rfl).trans
          (show 8 + 12 ≤ 28 by decide)
      · exact (parseSenseDescriptor_invalid sense h20 h22).2.trans (by decide)
      · exact (third_informationFirst rfl hfour (by omega)).1.2 hok
  obtain ⟨hin, hkey, hascq, hinformation, hpointer⟩ := parse_fixed x sense
  unfold FormatsAgree
  dsimp only
  rw [← hsb, hreads, hresult, hkey, hascq, hinformation, hpointer, hnine, hseven]
  constructor
  · rintro ⟨⟨-, hok⟩, -, -, -, hfield⟩
    exact ⟨hok.1, hok.2, hfield⟩
  · rintro ⟨hne, htrap, hfield⟩
    exact ⟨⟨hin, hne, htrap⟩, rfl, rfl, rfl, hfield⟩

/-! ### The sense key specific descriptor first -/

/-- The positions that are visited when the sense key specific descriptor comes first. -/
theorem walks_specFirst {v : Nat}
    (hwalk : Walks (descriptorSense x.toSenseHeader (x.descriptors true)) 28 8 v) :
    v = 8 ∨ v = 14 := by
  rcases Relation.ReflTransGen.cases_head hwalk with rfl | ⟨q, ⟨_, _, hq⟩, hrest⟩
  · exact .inl rfl
  · obtain rfl : q = 14 := hq
    rcases Relation.ReflTransGen.cases_head hrest with rfl | ⟨_, ⟨_, hlen, _⟩, _⟩
    · exact .inr rfl
    · have hzero : byte (descriptorSense x.toSenseHeader (x.descriptors true)) (14 + 1) = 0 := rfl
      rw [hzero] at hlen
      exact absurd (by decide) hlen

/-- **The sense key specific descriptor first**: the information is not found. -/
theorem formatsAgree_specFirst (x : SenseInfo) (sense : ScsiSense) :
    FormatsAgree x true sense ↔ x.information.toNat = sense.information := by
  set sb := descriptorSense x.toSenseHeader (x.descriptors true) with hsb
  have hlimit : senseLimit sb = 28 := senseLimit_descriptorSense
  have hlength : sb.length = 28 := length_descriptorSense
  obtain ⟨hfixed, hdesc⟩ := descriptorFormat_descriptorSense x.toSenseHeader
    (x.descriptors true)
  have h₀ : ¬(byte sb 14 = 0 ∧ byte sb (14 + 1) = 0x0a) := fun hc =>
    absurd (hc.2.symm.trans (show byte sb (14 + 1) = 0 from rfl)) (by decide)
  have h₂ : ¬(byte sb 14 = 2 ∧ byte sb (14 + 1) = 0x06) := fun hc =>
    absurd (hc.2.symm.trans (show byte sb (14 + 1) = 0 from rfl)) (by decide)
  have hresult : scsiParseSenseData sense sb =
      parseSenseSpec (x.toSenseHeader.start sense) sb 12 := by
    rw [hsb, parse_first (x.descriptors true) (Nat.succ_pos 19)]
    · unfold parseSenseDescriptor
      rw [← hsb, show byte sb 8 = 2 from rfl, if_neg (by decide), if_pos rfl,
        show byte sb (8 + 1) = 0x06 from rfl, if_pos rfl]
    · intro v hwalk hlt hne s
      rw [← hsb, hlimit] at hwalk
      obtain rfl := (walks_specFirst hwalk).resolve_left hne
      exact parseSenseDescriptor_other s h₀ h₂
  have hreads : ∀ i ∈ senseReads sb, i < sb.length := by
    rw [senseReads_lt, SenseFits, if_neg hfixed, if_pos hdesc, hlength, hlimit]
    refine ⟨by decide, fun p hwalk hlt => ?_⟩
    rcases walks_specFirst hwalk with rfl | rfl
    · exact (descriptorNeeds_first (x.descriptors true) rfl).trans
        (show 8 + 8 ≤ 28 by decide)
    · exact (descriptorNeeds_other h₀ h₂).trans_le (by decide)
  obtain ⟨hin, hkey, hascq, hinformation, hpointer⟩ := parse_fixed x sense
  obtain ⟨hkey', hascq', hinformation', hpointer'⟩ := parseSenseSpec_valid
    (x.toSenseHeader.start sense) (show byte sb 12 &&& 0x80 ≠ 0 from x.valid)
  have hpointer'' : scsiGetUint16 sb (12 + 1) = scsiGetUint16 [x.spec1, x.spec2] 0 :=
    scsiGetUint16_congr rfl rfl
  unfold FormatsAgree
  dsimp only
  rw [← hsb, hresult, hkey, hascq, hinformation, hpointer, hkey', hascq', hinformation',
    hpointer', hpointer'']
  exact ⟨fun h => h.2.2.2.1, fun h => ⟨⟨hin, hreads⟩, rfl, rfl, h, rfl⟩⟩

end

/-! ## The result -/

/-- **Sense data are parsed faithfully** exactly in these cases. Descriptors: there are none, or a
single one whose last two bytes do not look like a header. The two formats, compared after the same
earlier sense data: with the information descriptor first, its last byte does not lead beyond the
data, and the field pointer is the one that was there before; with the sense key specific
descriptor first, the information is the one that was there before. -/
theorem sense_faithful_iff (h : SenseHeader) (ds : SenseDescriptors) (x : SenseInfo)
    (sense : ScsiSense) :
    (DescriptorsFaithful h ds ↔ ds.list = [] ∨ ∃ d, ds.list = [d] ∧ ¬d.EndsLikeHeader) ∧
    (FormatsAgree x false sense ↔
      x.information.toUInt8 ≠ 9 ∧
        ¬(x.information.toUInt8 = 7 ∧ x.spec1 = 2 ∧ x.spec2 = 6) ∧
        scsiGetUint16 [x.spec1, x.spec2] 0 = sense.fieldPointer) ∧
    (FormatsAgree x true sense ↔ x.information.toNat = sense.information) :=
  ⟨descriptors_faithful_iff, formatsAgree_informationFirst x sense,
    formatsAgree_specFirst x sense⟩

/-- A field in error at byte 5 of a command for block 1000. -/
def fieldInError : SenseInfo where
  deferred := false
  key := 5
  asc := 0x24
  ascq := 0
  information := 1000
  spec0 := 0xc0
  spec1 := 0
  spec2 := 5
  valid := by decide

/-- Both descriptors are there: the field pointer is lost. -/
theorem fieldInError_unfaithful :
    ¬DescriptorsFaithful fieldInError.toSenseHeader (fieldInError.descriptors false) ∧
      ¬FormatsAgree fieldInError false {} := by
  refine ⟨fun h => ?_, fun h => ?_⟩
  · have hone := h.2.2 20 (by decide)
    exact absurd hone (by decide)
  · exact absurd h.2.2.2.2 (by decide)

end Libiscsi
