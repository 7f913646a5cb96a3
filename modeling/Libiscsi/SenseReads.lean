import Libiscsi.DataIn

/-!
# The bytes that the sense data are parsed from

`scsi_parse_sense_data` (`lib/iscsi-command.c`) gets the data segment of a response from its third
byte on, and no length. `senseVisits` are the positions that the walk over the descriptors comes to
and `senseReads` the indices of the bytes that are read on the way; the result depends on these
only (`scsiParseSenseData_congr`). How long the data must be for the reads to stay within them is
`SenseFits`.
-/

namespace Libiscsi

/-! ## Positions and reads -/

/-- The positions of the loop of `parse_sense_descriptors`, from `p` to `limit`. -/
def senseVisits : Nat → List UInt8 → Nat → Nat → List Nat
  | 0, _, _, _ => []
  | fuel + 1, sb, p, limit =>
    if p < limit then
      p :: if byte sb (p + 1) < 4 then []
        else senseVisits fuel sb (p + (byte sb (p + 1)).toNat) limit
    else []

/-- What `parse_sense_spec` reads. -/
def senseSpecReads (sb : List UInt8) (i : Nat) : List Nat :=
  if byte sb i &&& 0x80 = 0 then [i] else [i, i + 1, i + 2]

/-- What one turn of the loop of `parse_sense_descriptors` reads. -/
def descriptorReads (sb : List UInt8) (p : Nat) : List Nat :=
  if byte sb (p + 1) < 4 then [p + 1]
  else if byte sb p = 0 then
    if byte sb (p + 1) = 0x0a then
      if byte sb (p + 2) &&& 0x80 ≠ 0 then
        [p + 1, p, p + 2, p + 4, p + 5, p + 6, p + 7, p + 8, p + 9, p + 10, p + 11]
      else [p + 1, p, p + 2]
    else [p + 1, p]
  else if byte sb p = 2 then
    if byte sb (p + 1) = 0x06 then [p + 1, p] ++ senseSpecReads sb (p + 4) else [p + 1, p]
  else [p + 1, p]

/-- The response code of the fixed format. -/
def fixedFormat (sb : List UInt8) : Prop :=
  byte sb 0 &&& 0x7f = 0x70 ∨ byte sb 0 &&& 0x7f = 0x71

/-- The response code of the descriptor format. -/
def descriptorFormat (sb : List UInt8) : Prop :=
  byte sb 0 &&& 0x7f = 0x72 ∨ byte sb 0 &&& 0x7f = 0x73

instance (sb : List UInt8) : Decidable (fixedFormat sb) :=
  inferInstanceAs (Decidable (_ ∨ _))

instance (sb : List UInt8) : Decidable (descriptorFormat sb) :=
  inferInstanceAs (Decidable (_ ∨ _))

/-- Where the descriptors end. -/
def senseLimit (sb : List UInt8) : Nat := 8 + (byte sb 7).toNat

/-- The positions that the walk over the descriptors comes to. -/
def descriptorVisits (sb : List UInt8) : List Nat :=
  senseVisits (byte sb 7).toNat sb 8 (senseLimit sb)

/-- What `scsi_parse_sense_data` reads. -/
def senseReads (sb : List UInt8) : List Nat :=
  if fixedFormat sb then
    [0, 2, 12, 13] ++ (if byte sb 0 &&& 0x80 ≠ 0 then [3, 4, 5, 6] else []) ++
      senseSpecReads sb 15
  else if descriptorFormat sb then
    [0, 1, 2, 3, 7] ++ (descriptorVisits sb).flatMap (descriptorReads sb)
  else [0]

/-! ## The walk -/

/-- One turn of the loop that goes on. -/
def WalkStep (sb : List UInt8) (limit p q : Nat) : Prop :=
  p < limit ∧ ¬byte sb (p + 1) < 4 ∧ q = p + (byte sb (p + 1)).toNat

/-- The loop comes from `p` to `q`. -/
def Walks (sb : List UInt8) (limit : Nat) : Nat → Nat → Prop :=
  Relation.ReflTransGen (WalkStep sb limit)

section
variable {sb sb' : List UInt8} {p q limit fuel : Nat}

/-- A turn passes at least four bytes. -/
theorem WalkStep.lt (h : WalkStep sb limit p q) : p + 4 ≤ q := by
  obtain ⟨_, hlen, rfl⟩ := h
  have hle : (4 : UInt8).toNat ≤ (byte sb (p + 1)).toNat :=
    UInt8.le_iff_toNat_le.1 (UInt8.not_lt.1 hlen)
  have hfour : (4 : UInt8).toNat = 4 := rfl
  omega

/-- The walk does not go back. -/
theorem Walks.le (h : Walks sb limit p q) : p ≤ q := by
  induction h with
  | refl => exact le_rfl
  | tail _ hstep ih =>
    have := hstep.lt
    omega

/-- **The walk visits the positions it comes to**, if the turns suffice. -/
theorem mem_senseVisits (hfuel : limit ≤ p + fuel) :
    q ∈ senseVisits fuel sb p limit ↔ Walks sb limit p q ∧ q < limit := by
  induction fuel generalizing p with
  | zero =>
    refine iff_of_false List.not_mem_nil fun ⟨hwalk, hlt⟩ => ?_
    have := hwalk.le
    omega
  | succ fuel ih =>
    rw [senseVisits]
    split
    · rename_i hlt
      rw [List.mem_cons]
      split
      · rename_i hlen
        constructor
        · rintro (rfl | hmem)
          · exact ⟨.refl, hlt⟩
          · cases hmem
        · rintro ⟨hwalk, -⟩
          rcases Relation.ReflTransGen.cases_head hwalk with rfl | ⟨_, hstep, _⟩
          · exact .inl rfl
          · exact absurd hlen hstep.2.1
      · rename_i hlen
        have hstep : WalkStep sb limit p (p + (byte sb (p + 1)).toNat) := ⟨hlt, hlen, rfl⟩
        have hpass := hstep.lt
        rw [ih (by omega)]
        constructor
        · rintro (rfl | ⟨hwalk, hq⟩)
          · exact ⟨.refl, hlt⟩
          · exact ⟨.head hstep hwalk, hq⟩
        · rintro ⟨hwalk, hq⟩
          rcases Relation.ReflTransGen.cases_head hwalk with rfl | ⟨_, ⟨_, _, rfl⟩, hrest⟩
          · exact .inl rfl
          · exact .inr ⟨hrest, hq⟩
    · rename_i hge
      refine iff_of_false List.not_mem_nil fun ⟨hwalk, hq⟩ => ?_
      have := hwalk.le
      omega

theorem mem_descriptorVisits : q ∈ descriptorVisits sb ↔
    Walks sb (senseLimit sb) 8 q ∧ q < senseLimit sb :=
  mem_senseVisits le_rfl

/-- **The walk ends**: more turns change nothing. -/
theorem parseSenseDescriptors_stable (more : Nat) (hfuel : limit ≤ p + fuel) :
    ∀ sense, parseSenseDescriptors (fuel + more) sense sb p limit =
      parseSenseDescriptors fuel sense sb p limit := by
  induction fuel generalizing p with
  | zero =>
    intro sense
    cases more with
    | zero => rfl
    | succ more =>
      rw [Nat.zero_add, parseSenseDescriptors, parseSenseDescriptors, if_neg (by omega)]
  | succ fuel ih =>
    intro sense
    rw [Nat.succ_add, parseSenseDescriptors, parseSenseDescriptors]
    split
    · rename_i hlt
      split
      · rfl
      · rename_i hlen
        have hpass := WalkStep.lt ⟨hlt, hlen, rfl⟩
        exact ih (by omega) _
    · rfl

/-! ## The result depends on what is read -/

/-- The number of two bytes that are read. -/
theorem scsiGetUint16_congr {i j : Nat} (h₀ : byte sb i = byte sb' j)
    (h₁ : byte sb (i + 1) = byte sb' (j + 1)) : scsiGetUint16 sb i = scsiGetUint16 sb' j := by
  unfold scsiGetUint16
  rw [h₀, h₁]

/-- The number of four bytes that are read. -/
theorem scsiGetUint32_congr {i j : Nat} (h : ∀ k < 4, byte sb (i + k) = byte sb' (j + k)) :
    scsiGetUint32 sb i = scsiGetUint32 sb' j := by
  unfold scsiGetUint32
  have h₀ := h 0 (by omega)
  have h₁ := h 1 (by omega)
  have h₂ := h 2 (by omega)
  have h₃ := h 3 (by omega)
  simp only [Nat.add_zero] at h₀
  rw [h₀, h₁, h₂, h₃]

theorem parseSenseSpec_congr {i : Nat} (sense : ScsiSense)
    (h : ∀ k ∈ senseSpecReads sb i, byte sb k = byte sb' k) :
    parseSenseSpec sense sb i = parseSenseSpec sense sb' i := by
  unfold senseSpecReads at h
  split at h
  · rename_i hzero
    have h₀ := h i (by simp)
    unfold parseSenseSpec
    rw [← h₀, if_pos hzero, if_pos hzero]
  · have h₀ := h i (by simp)
    have h₁ := h (i + 1) (by simp)
    have h₂ := h (i + 2) (by simp)
    unfold parseSenseSpec
    rw [← h₀, scsiGetUint16_congr h₁ h₂]

theorem parseSenseDescriptor_congr (sense : ScsiSense) (hlen : ¬byte sb (p + 1) < 4)
    (h : ∀ k ∈ descriptorReads sb p, byte sb k = byte sb' k) :
    parseSenseDescriptor sense sb p = parseSenseDescriptor sense sb' p := by
  unfold descriptorReads at h
  rw [if_neg hlen] at h
  unfold parseSenseDescriptor
  split at h
  · rename_i htype
    split at h
    · rename_i hsize
      split at h
      · rename_i hvalid
        rw [← h p (by simp), ← h (p + 1) (by simp), ← h (p + 2) (by simp)]
        have h₄ : scsiGetUint32 sb (p + 4) = scsiGetUint32 sb' (p + 4) :=
          scsiGetUint32_congr fun k hk => h _ (by interval_cases k <;> simp [Nat.add_assoc])
        have h₈ : scsiGetUint32 sb (p + 8) = scsiGetUint32 sb' (p + 8) :=
          scsiGetUint32_congr fun k hk => h _ (by interval_cases k <;> simp [Nat.add_assoc])
        rw [h₄, h₈, if_pos htype, if_pos htype]
      · rename_i hvalid
        rw [← h p (by simp), ← h (p + 1) (by simp), ← h (p + 2) (by simp), if_pos htype,
          if_pos htype, if_neg fun hc => hvalid hc.2, if_neg fun hc => hvalid hc.2]
    · rename_i hsize
      rw [← h p (by simp), ← h (p + 1) (by simp), if_pos htype, if_pos htype,
        if_neg fun hc => hsize hc.1, if_neg fun hc => hsize hc.1]
  · rename_i htype
    split at h
    · rename_i htype₂
      split at h
      · rename_i hsize
        rw [← h p (by simp), ← h (p + 1) (by simp), if_neg htype, if_neg htype, if_pos htype₂,
          if_pos htype₂, if_pos hsize, if_pos hsize]
        exact parseSenseSpec_congr sense fun k hk => h k (by simp [hk])
      · rename_i hsize
        rw [← h p (by simp), ← h (p + 1) (by simp), if_neg htype, if_neg htype, if_pos htype₂,
          if_pos htype₂, if_neg hsize, if_neg hsize]
    · rename_i htype₂
      rw [← h p (by simp), if_neg htype, if_neg htype, if_neg htype₂, if_neg htype₂]

/-- The length of a descriptor is read in any case. -/
theorem length_mem_descriptorReads (sb : List UInt8) (p : Nat) :
    p + 1 ∈ descriptorReads sb p := by
  unfold descriptorReads
  split_ifs <;> simp

theorem parseSenseDescriptors_congr (sense : ScsiSense)
    (h : ∀ v ∈ senseVisits fuel sb p limit, ∀ k ∈ descriptorReads sb v, byte sb k = byte sb' k) :
    parseSenseDescriptors fuel sense sb p limit =
      parseSenseDescriptors fuel sense sb' p limit := by
  induction fuel generalizing p sense with
  | zero => rfl
  | succ fuel ih =>
    rw [senseVisits] at h
    rw [parseSenseDescriptors, parseSenseDescriptors]
    split
    · rename_i hlt
      rw [if_pos hlt] at h
      have hsize := h p (by simp) (p + 1) (length_mem_descriptorReads sb p)
      rw [← hsize]
      split
      · rfl
      · rename_i hlen
        rw [if_neg hlen] at h
        rw [parseSenseDescriptor_congr sense hlen (h p (by simp))]
        exact ih _ fun v hv => h v (List.mem_cons_of_mem _ hv)
    · rfl

/-- The information of the fixed format. -/
def ScsiSense.withInformation (sense : ScsiSense) (sb : List UInt8) : ScsiSense :=
  if byte sb 0 &&& 0x80 ≠ 0 then
    { sense with infoValid := true, information := (scsiGetUint32 sb 3).toNat }
  else sense

theorem scsiParseSenseData_fixed (sense : ScsiSense) (h : fixedFormat sb) :
    scsiParseSenseData sense sb = parseSenseSpec
      { ScsiSense.withInformation
          { sense with errorType := byte sb 0 &&& 0x7f, key := byte sb 2 &&& 0x0f } sb with
        ascq := scsiGetUint16 sb 12 } sb 15 :=
  if_pos h

theorem scsiParseSenseData_descriptors (sense : ScsiSense) (h : ¬fixedFormat sb)
    (h' : descriptorFormat sb) :
    scsiParseSenseData sense sb = parseSenseDescriptors (byte sb 7).toNat
      { sense with
        errorType := byte sb 0 &&& 0x7f
        key := byte sb 1 &&& 0x0f
        ascq := scsiGetUint16 sb 2 } sb 8 (senseLimit sb) :=
  (if_neg h).trans (if_pos h')

theorem scsiParseSenseData_other (sense : ScsiSense) (h : ¬fixedFormat sb)
    (h' : ¬descriptorFormat sb) :
    scsiParseSenseData sense sb = { sense with errorType := byte sb 0 &&& 0x7f } :=
  (if_neg h).trans (if_neg h')

/-- **The sense data depend only on the bytes that are read.** -/
theorem scsiParseSenseData_congr (sense : ScsiSense)
    (h : ∀ i ∈ senseReads sb, byte sb i = byte sb' i) :
    scsiParseSenseData sense sb = scsiParseSenseData sense sb' := by
  have h₀ : byte sb 0 = byte sb' 0 := h 0 (by unfold senseReads; split_ifs <;> simp)
  have hf : fixedFormat sb ↔ fixedFormat sb' := by rw [fixedFormat, fixedFormat, h₀]
  have hd : descriptorFormat sb ↔ descriptorFormat sb' := by
    rw [descriptorFormat, descriptorFormat, h₀]
  unfold senseReads at h
  by_cases hfixed : fixedFormat sb
  · rw [if_pos hfixed] at h
    have hinfo : ∀ s : ScsiSense, s.withInformation sb = s.withInformation sb' := fun s => by
      unfold ScsiSense.withInformation
      rw [← h₀]
      split
      · rename_i hvalid
        rw [if_pos hvalid] at h
        have hnumber : scsiGetUint32 sb 3 = scsiGetUint32 sb' 3 :=
          scsiGetUint32_congr fun k hk => h _ (by interval_cases k <;> simp)
        rw [hnumber]
      · rfl
    rw [scsiParseSenseData_fixed sense hfixed, scsiParseSenseData_fixed sense (hf.1 hfixed), hinfo,
      ← h₀, ← h 2 (by simp), scsiGetUint16_congr (h 12 (by simp)) (h 13 (by simp))]
    exact parseSenseSpec_congr _ fun k hk => h k (List.mem_append_right _ hk)
  · rw [if_neg hfixed] at h
    by_cases hdesc : descriptorFormat sb
    · rw [if_pos hdesc] at h
      have hlimit : senseLimit sb = senseLimit sb' := by
        rw [senseLimit, senseLimit, h 7 (by simp)]
      rw [scsiParseSenseData_descriptors sense hfixed hdesc,
        scsiParseSenseData_descriptors sense (fun hc => hfixed (hf.2 hc)) (hd.1 hdesc), ← hlimit,
        ← h₀, ← h 1 (by simp), ← h 7 (by simp),
        scsiGetUint16_congr (h 2 (by simp)) (h 3 (by simp))]
      refine parseSenseDescriptors_congr _ fun v hv k hk => h k ?_
      exact List.mem_append_right _ (List.mem_flatMap.2 ⟨v, hv, hk⟩)
    · rw [scsiParseSenseData_other sense hfixed hdesc,
        scsiParseSenseData_other sense (fun hc => hfixed (hf.2 hc)) (fun hc => hdesc (hd.2 hc)),
        h₀]

/-! ## How long the data must be -/

/-- The length that `parse_sense_spec` needs. -/
def senseSpecNeeds (sb : List UInt8) (i : Nat) : Nat :=
  if byte sb i &&& 0x80 = 0 then i + 1 else i + 3

/-- The length that one turn of the loop of `parse_sense_descriptors` needs. -/
def descriptorNeeds (sb : List UInt8) (p : Nat) : Nat :=
  if byte sb (p + 1) < 4 then p + 2
  else if byte sb p = 0 then
    if byte sb (p + 1) = 0x0a then if byte sb (p + 2) &&& 0x80 ≠ 0 then p + 12 else p + 3
    else p + 2
  else if byte sb p = 2 then
    if byte sb (p + 1) = 0x06 then senseSpecNeeds sb (p + 4) else p + 2
  else p + 2

/-- `n` bytes are enough for the sense data: the sense key specific field of the fixed format is
there; in the descriptor format the header is, and what the walk needs wherever it comes. -/
def SenseFits (sb : List UInt8) (n : Nat) : Prop :=
  if fixedFormat sb then senseSpecNeeds sb 15 ≤ n
  else if descriptorFormat sb then
    8 ≤ n ∧ ∀ p, Walks sb (senseLimit sb) 8 p → p < senseLimit sb → descriptorNeeds sb p ≤ n
  else 1 ≤ n

theorem senseSpecReads_lt {i n : Nat} :
    (∀ k ∈ senseSpecReads sb i, k < n) ↔ senseSpecNeeds sb i ≤ n := by
  unfold senseSpecReads senseSpecNeeds
  split
  · simp
  · simp only [List.mem_cons, List.not_mem_nil, or_false, forall_eq_or_imp, forall_eq]
    omega

theorem descriptorReads_lt {n : Nat} :
    (∀ k ∈ descriptorReads sb p, k < n) ↔ descriptorNeeds sb p ≤ n := by
  have htwo : (∀ k ∈ [p + 1, p], k < n) ↔ p + 2 ≤ n := by
    simp only [List.mem_cons, List.not_mem_nil, or_false, forall_eq_or_imp, forall_eq]
    omega
  unfold descriptorReads descriptorNeeds
  split
  · simp [Nat.succ_le_iff]
  · split
    · split
      · split
        · simp only [List.mem_cons, List.not_mem_nil, or_false, forall_eq_or_imp, forall_eq]
          omega
        · simp only [List.mem_cons, List.not_mem_nil, or_false, forall_eq_or_imp, forall_eq]
          omega
      · exact htwo
    · split
      · split
        · have hspec : p + 5 ≤ senseSpecNeeds sb (p + 4) := by
            unfold senseSpecNeeds
            split <;> omega
          rw [List.forall_mem_append, senseSpecReads_lt, htwo]
          omega
        · exact htwo
      · exact htwo

/-- **The reads stay within `n` bytes** exactly if these are enough. -/
theorem senseReads_lt {n : Nat} : (∀ i ∈ senseReads sb, i < n) ↔ SenseFits sb n := by
  unfold senseReads SenseFits
  split
  · have hspec : 16 ≤ senseSpecNeeds sb 15 := by
      unfold senseSpecNeeds
      split <;> omega
    rw [List.forall_mem_append, List.forall_mem_append, senseSpecReads_lt]
    refine ⟨fun h => h.2, fun h => ⟨⟨?_, ?_⟩, h⟩⟩
    · simp only [List.mem_cons, List.not_mem_nil, or_false, forall_eq_or_imp, forall_eq]
      omega
    · split
      · simp only [List.mem_cons, List.not_mem_nil, or_false, forall_eq_or_imp, forall_eq]
        omega
      · simp
  · split
    · rw [List.forall_mem_append]
      refine and_congr ?_ ?_
      · simp only [List.mem_cons, List.not_mem_nil, or_false, forall_eq_or_imp, forall_eq]
        omega
      · simp only [List.mem_flatMap, forall_exists_index, and_imp]
        constructor
        · intro h p hwalk hlt
          exact descriptorReads_lt.1 fun k hk => h k p (mem_descriptorVisits.2 ⟨hwalk, hlt⟩) hk
        · intro h k p hp hk
          obtain ⟨hwalk, hlt⟩ := mem_descriptorVisits.1 hp
          exact descriptorReads_lt.2 (h p hwalk hlt) k hk
    · simp [Nat.succ_le_iff]

end

/-! ## The data segment of a response -/

/-- The `SenseLength` field of the data segment of a response. -/
def senseLength (datain : List UInt8) : Nat := (scsiGetUint16 datain 0).toNat

/-- A response with CHECK CONDITION makes its data segment the data of the task, and the sense
data are parsed from its third byte on. -/
theorem replyStatus_checkCondition {w : World} (a : Addr) (pdu : Pdu) (t : TaskPtr)
    {inPdu : InPdu} (hstatus : byte inPdu.hdr 3 = 2) (hmalloc : w.malloc.1 = true) :
    replyStatus w a pdu t inPdu = answer (w.malloc.2.modifyTask t fun task =>
      { task with
        datain := inPdu.payload
        sense := scsiParseSenseData task.sense (inPdu.payload.drop 2) }) a
      scsiStatusCheckCondition 0 := by
  unfold replyStatus
  rw [hstatus]
  rcases hm : w.malloc with ⟨ok, w₁⟩
  rw [hm] at hmalloc
  obtain rfl : ok = true := hmalloc
  rfl

/-- The sense data are parsed from bytes of `task->datain` that `SenseLength` counts, and the walk
over the descriptors ends. -/
def SenseWithin (datain : List UInt8) : Prop :=
  (∀ i ∈ senseReads (datain.drop 2), 2 + i < datain.length ∧ i < senseLength datain) ∧
    ∀ more sense, let sb := datain.drop 2
      parseSenseDescriptors ((byte sb 7).toNat + more) sense sb 8 (senseLimit sb) =
        parseSenseDescriptors (byte sb 7).toNat sense sb 8 (senseLimit sb)

/-- **The sense data of a response are parsed within the data segment** and within the bytes that
`SenseLength` counts exactly if these are long enough. -/
theorem senseWithin_iff (inPdu : InPdu) : SenseWithin inPdu.payload ↔
    SenseFits (inPdu.payload.drop 2)
      (min (inPdu.payload.length - 2) (senseLength inPdu.payload)) := by
  rw [← senseReads_lt]
  constructor
  · rintro ⟨hreads, -⟩ i hi
    have := hreads i hi
    omega
  · intro hreads
    refine ⟨fun i hi => ?_, fun more sense => parseSenseDescriptors_stable more le_rfl sense⟩
    have := hreads i hi
    omega

/-- A CHECK CONDITION without a data segment. -/
theorem senseWithin_empty : ¬SenseWithin ({ hdr := [0x21, 0x80, 0, 2] } : InPdu).payload := by
  rintro ⟨hreads, -⟩
  exact absurd (hreads 0 (by decide)).1 (by decide)

end Libiscsi
