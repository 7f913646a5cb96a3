import Libiscsi.Decode
import Libiscsi.UnmarshallCorrect

/-!
# The pages of MODE SENSE

A reply to MODE SENSE(6) or MODE SENSE(10) is a header, block descriptors, and mode pages of lengths
of their own. The pages are found one after the other, in reverse order, but the fields of a page
are read up to 38 bytes behind its header whatever its length is, and the length of the block
descriptors is kept in eight bits (`modeSense_iff`).
-/

namespace Libiscsi.Decode

open Bounded Unmarshall Outcome

/-! ## Replies -/

/-- A mode page of a reply: a page, or a subpage with its code. -/
structure ReplyPage where
  ps : Bool
  code : Nat
  subpage : Option Nat
  body : List UInt8
  code_lt : code < 64
  subpage_lt : ∀ s, subpage = some s → s < 256
  length_lt : body.length < if subpage.isSome then 2 ^ 16 else 2 ^ 8

namespace ReplyPage
variable (p : ReplyPage)

/-- The first byte of a page. -/
def first : Nat := (if p.ps then 128 else 0) + (if p.subpage.isSome then 64 else 0) + p.code

/-- The header of a page. -/
def header : List UInt8 :=
  UInt8.ofNat p.first :: match p.subpage with
    | none => [UInt8.ofNat p.body.length]
    | some s => UInt8.ofNat s :: be16 p.body.length

/-- The bytes of a page. -/
def encode : List UInt8 := p.header ++ p.body

/-- A page as it is returned, with these fields. -/
def toModePage (fields : List (String × Nat)) : ModePage where
  ps := if p.ps then 0x80 else 0
  spf := if p.subpage.isSome then 0x40 else 0
  pageCode := p.code
  subpageCode := p.subpage.getD 0
  len := p.body.length
  fields

/-- The page as its own bytes say. -/
def own : ModePage := p.toModePage (ownFields p.body (modePageFields p.code))

end ReplyPage

/-- A reply to a MODE SENSE, of which `isModesense6` says which one. -/
structure ModeReply where
  isModesense6 : Bool
  mediumType : UInt8
  deviceSpecificParameter : UInt8
  longlba : Bool
  blockDescriptors : List UInt8
  pages : List ReplyPage
  fits : blockDescriptors.length + (pages.flatMap ReplyPage.encode).length +
    (if isModesense6 then 3 else 6) < if isModesense6 then 2 ^ 8 else 2 ^ 16

namespace ModeReply
variable (r : ModeReply)

/-- The mode data length: the number of bytes behind it. -/
def modeDataLength : Nat :=
  r.blockDescriptors.length + (r.pages.flatMap ReplyPage.encode).length +
    if r.isModesense6 then 3 else 6

/-- The header of a reply. -/
def header : List UInt8 :=
  if r.isModesense6 then
    [UInt8.ofNat r.modeDataLength, r.mediumType, r.deviceSpecificParameter,
      UInt8.ofNat r.blockDescriptors.length]
  else be16 r.modeDataLength ++ ([r.mediumType, r.deviceSpecificParameter,
    if r.longlba then 1 else 0, 0] ++ be16 r.blockDescriptors.length)

/-- The data of the reply. -/
def data : List UInt8 :=
  (r.header ++ r.blockDescriptors) ++ r.pages.flatMap ReplyPage.encode

/-- What the header says. -/
def modeSense (blockDescriptorLength : Nat) (pages : List ModePage) : ModeSense where
  modeDataLength := r.modeDataLength
  mediumType := r.mediumType.toNat
  deviceSpecificParameter := r.deviceSpecificParameter.toNat
  longlba := if r.isModesense6 then 0 else if r.longlba then 1 else 0
  blockDescriptorLength
  pages

/-- The reply is parsed into its pages, each of which has what its own bytes say. -/
def Parsed : Prop :=
  scsiModesenseDatainUnmarshall r.data r.isModesense6 =
    .ok (some (r.modeSense r.blockDescriptors.length (r.pages.map ReplyPage.own).reverse))

end ModeReply

/-- In each page, what stands where a field that is not in the page is read is zero. -/
def PagesPadded : List ReplyPage → Prop
  | [] => True
  | p :: pages =>
    (∀ f ∈ modePageFields p.code, p.body.length < f.off + f.width →
      f.part (uint (p.body ++ pages.flatMap ReplyPage.encode) f.width f.off) = 0) ∧
      PagesPadded pages

/-! ## One page -/

/-- The pages as they are read: their fields from all bytes that follow their headers. -/
def storedPages : List ReplyPage → List ModePage
  | [] => []
  | p :: pages => p.toModePage (ownFields (p.body ++ pages.flatMap ReplyPage.encode)
      (modePageFields p.code)) :: storedPages pages

/-- The parts of the first byte of a page. -/
theorem page_parts : ∀ b < 256, b &&& 0x80 = b / 128 * 128 ∧ b &&& 0x40 = b / 64 % 2 * 64 ∧
    b &&& 0x3f = b % 64 := by
  decide +kernel

/-- Fields are at most 37 bytes behind the header. -/
theorem modePageFields_off (code : Nat) : ∀ f ∈ modePageFields code, f.off ≤ 37 := by
  unfold modePageFields
  split
  · decide
  split
  · decide
  split
  · decide
  split
  · decide
  split
  · decide
  · intro f hf
    cases hf

namespace ReplyPage
variable (p : ReplyPage)

theorem first_lt : p.first < 256 := by
  have hcode := p.code_lt
  unfold first
  split <;> split <;> omega

/-- The parts of the first byte are those of the page. -/
theorem first_parts : p.first &&& 0x80 = (if p.ps then 0x80 else 0) ∧
    p.first &&& 0x40 = (if p.subpage.isSome then 0x40 else 0) ∧ p.first &&& 0x3f = p.code := by
  obtain ⟨hps, hspf, hcode⟩ := page_parts p.first p.first_lt
  have hlt := p.code_lt
  rw [hps, hspf, hcode]
  unfold first
  refine ⟨?_, ?_, ?_⟩ <;> split <;> split <;> omega

variable {p}

/-- The header of a page is read. -/
theorem header_eq {pre post : List UInt8} (hlt : pre.length + 4 < 2 ^ 31) :
    modePageHeader (pre ++ (p.header ++ post)) p.first pre.length =
      .ok (p.subpage.getD 0, p.body.length, (pre ++ p.header).length) := by
  have hread : ∀ width k, uint (pre ++ (p.header ++ post)) width (pre.length + k) =
      uint (p.header ++ post) width k := uint_append_right pre (p.header ++ post)
  have hspf := p.first_parts.2.1
  have hlen := p.length_lt
  unfold modePageHeader
  rw [hspf]
  cases hs : p.subpage with
  | none =>
    have hheader : p.header = [UInt8.ofNat p.first, UInt8.ofNat p.body.length] := by
      rw [header, hs]
    have hbyte : uint (p.header ++ post) 1 1 = p.body.length := by
      rw [hheader, uint_one (b := UInt8.ofNat p.body.length) rfl, UInt8.toNat_ofNat']
      rw [hs] at hlen
      exact Nat.mod_eq_of_lt hlen
    rw [if_pos (by rfl), number_of_lt (by omega), ok_bind, offset_of_lt (by omega), ok_bind, hread,
      hbyte, List.length_append, hheader]
    rfl
  | some s =>
    have hheader : p.header = UInt8.ofNat p.first :: UInt8.ofNat s :: be16 p.body.length := by
      rw [header, hs]
    have hsub : uint (p.header ++ post) 1 1 = s := by
      rw [hheader, uint_one (b := UInt8.ofNat s) rfl, UInt8.toNat_ofNat']
      exact Nat.mod_eq_of_lt (p.subpage_lt s hs)
    have hbytes : uint (p.header ++ post) 2 2 = p.body.length := by
      rw [hs] at hlen
      have hshift := uint_append_right [UInt8.ofNat p.first, UInt8.ofNat s]
        (be16 p.body.length ++ post) 2 0
      rw [uint_be16 hlen] at hshift
      rw [hheader]
      exact hshift
    rw [if_neg (by simp), number_of_lt (by omega), ok_bind, number_of_lt (by omega), ok_bind,
      offset_of_lt (by omega), ok_bind, hread, hread, hsub, hbytes, List.length_append, hheader]
    rfl

/-- The header of a page has at least two bytes, and at most four. -/
theorem header_length : 2 ≤ p.header.length ∧ p.header.length ≤ 4 := by
  unfold header
  cases p.subpage with
  | none => exact ⟨by simp, by simp⟩
  | some s => exact ⟨by simp, by simp⟩

end ReplyPage

/-- One turn of the loop reads a page and goes on behind it. -/
theorem modePages_encode {p : ReplyPage} {pre post : List UInt8} {fuel : Nat}
    {pages : List ModePage} (hlt : (pre ++ (p.encode ++ post)).length + 37 < 2 ^ 31) :
    modePages (pre ++ (p.encode ++ post)) (fuel + 1) pre.length pages =
      modePages (pre ++ (p.encode ++ post)) fuel (pre ++ p.encode).length
        (p.toModePage (ownFields (p.body ++ post) (modePageFields p.code)) :: pages) := by
  have hdata : pre ++ (p.encode ++ post) = pre ++ (p.header ++ (p.body ++ post)) := by
    rw [ReplyPage.encode, List.append_assoc]
  have hdata' : pre ++ (p.encode ++ post) = (pre ++ p.header) ++ (p.body ++ post) := by
    rw [hdata, List.append_assoc]
  have hhead := p.header_length
  have hlen : (pre ++ (p.encode ++ post)).length =
      pre.length + p.header.length + p.body.length + post.length := by
    rw [hdata, List.length_append, List.length_append, List.length_append]
    omega
  have hfirst : number (pre ++ (p.encode ++ post)) 1 pre.length = .ok p.first := by
    have hread := uint_append_right pre (p.encode ++ post) 1 0
    have hbyte : uint (p.encode ++ post) 1 0 = p.first := by
      rw [uint_one (b := UInt8.ofNat p.first) rfl, UInt8.toNat_ofNat']
      exact Nat.mod_eq_of_lt p.first_lt
    rw [hbyte, Nat.add_zero] at hread
    rw [number_of_lt (by omega), hread]
  have hheader := @ReplyPage.header_eq p pre (p.body ++ post) (by omega)
  rw [← hdata] at hheader
  obtain ⟨hps, hspf, hcode⟩ := p.first_parts
  have hfields : fieldsAt (pre ++ (p.encode ++ post)) (pre ++ p.header).length
      (modePageFields p.code) = .ok (ownFields (p.body ++ post) (modePageFields p.code)) := by
    rw [fieldsAt_of_lt fun f hf => ?_]
    · refine congrArg _ (List.map_congr_left fun f _ => ?_)
      rw [hdata', uint_append_right]
    · have := modePageFields_off p.code f hf
      rw [List.length_append]
      omega
  conv_lhs => unfold modePages
  rw [if_neg (by omega), hfirst, ok_bind, hheader, ok_bind]
  simp only
  rw [hcode, hfields, ok_bind, offset_of_lt (by rw [List.length_append]; omega), ok_bind, hps, hspf]
  have hnext : (pre ++ p.header).length + p.body.length = (pre ++ p.encode).length := by
    rw [ReplyPage.encode, ← List.append_assoc]
    exact List.length_append.symm
  rw [hnext]
  rfl

/-- The loop reads the pages of a reply: by induction on those that are left. -/
theorem modePages_encodes :
    ∀ {ps : List ReplyPage} {pages : List ModePage} {pre : List UInt8} {fuel : Nat},
      (pre ++ ps.flatMap ReplyPage.encode).length + 37 < 2 ^ 31 →
      (ps.flatMap ReplyPage.encode).length ≤ fuel →
      modePages (pre ++ ps.flatMap ReplyPage.encode) fuel pre.length pages =
        .ok ((storedPages ps).reverse ++ pages)
  | [], pages, pre, fuel, _, _ => by
    cases fuel with
    | zero => rfl
    | succ fuel =>
      unfold modePages
      exact if_pos (by simp)
  | p :: ps, pages, pre, fuel, hlt, hfuel => by
    have hhead := p.header_length
    have hdata : pre ++ (p :: ps).flatMap ReplyPage.encode =
        pre ++ (p.encode ++ ps.flatMap ReplyPage.encode) := by
      rw [List.flatMap_cons]
    have hlen : ((p :: ps).flatMap ReplyPage.encode).length =
        p.header.length + p.body.length + (ps.flatMap ReplyPage.encode).length := by
      rw [List.flatMap_cons, List.length_append, ReplyPage.encode, List.length_append]
    obtain ⟨fuel, rfl⟩ : ∃ n, fuel = n + 1 := ⟨fuel - 1, by omega⟩
    have hassoc : (pre ++ p.encode) ++ ps.flatMap ReplyPage.encode =
        pre ++ (p.encode ++ ps.flatMap ReplyPage.encode) := List.append_assoc ..
    have hih := @modePages_encodes ps
      (p.toModePage (ownFields (p.body ++ ps.flatMap ReplyPage.encode)
        (modePageFields p.code)) :: pages) (pre ++ p.encode) fuel
      (by rw [hassoc, ← hdata]; exact hlt) (by omega)
    rw [hassoc] at hih
    rw [hdata] at hlt ⊢
    rw [modePages_encode hlt, hih, storedPages, List.reverse_cons, List.append_assoc]
    rfl

/-! ## The pages as their own bytes say -/

/-- The fields of a page are its own exactly if those that are not in it are read as zero. -/
theorem ownFields_append {l m : List UInt8} {fs : List Field} :
    ownFields (l ++ m) fs = ownFields l fs ↔
      ∀ f ∈ fs, l.length < f.off + f.width → f.part (uint (l ++ m) f.width f.off) = 0 := by
  unfold ownFields
  rw [List.map_inj_left]
  refine forall₂_congr fun f _ => ?_
  by_cases h : f.off + f.width ≤ l.length
  · rw [uint_append_left h]
    exact iff_of_true rfl fun hlt => absurd h (by omega)
  · rw [uint_of_lt (l := l) (by omega), f.part_zero, Prod.mk.injEq]
    exact ⟨fun h' _ => h'.2, fun h' => ⟨rfl, h' (by omega)⟩⟩

/-- The pages that are read are those of the reply exactly if they are padded. -/
theorem storedPages_eq_iff :
    ∀ {pages : List ReplyPage}, storedPages pages = pages.map ReplyPage.own ↔ PagesPadded pages
  | [] => iff_of_true rfl trivial
  | p :: pages => by
    have hfields : p.toModePage (ownFields (p.body ++ pages.flatMap ReplyPage.encode)
        (modePageFields p.code)) = p.own ↔
          ownFields (p.body ++ pages.flatMap ReplyPage.encode) (modePageFields p.code) =
            ownFields p.body (modePageFields p.code) :=
      ⟨fun h => congrArg ModePage.fields h, fun h => congrArg p.toModePage h⟩
    rw [storedPages, List.map_cons, List.cons.injEq, hfields, ownFields_append,
      storedPages_eq_iff]
    rfl

/-! ## The reply -/

namespace ModeReply
variable (r : ModeReply)

theorem length_header : r.header.length = if r.isModesense6 then 4 else 8 := by
  unfold header
  cases r.isModesense6 <;> rfl

theorem length_data : r.data.length = (if r.isModesense6 then 4 else 8) +
    r.blockDescriptors.length + (r.pages.flatMap ReplyPage.encode).length := by
  rw [data, List.length_append, List.length_append, length_header]

/-- The pages of the reply, from where the code looks for them. -/
theorem pages_eq (h : r.data.length + 37 < 2 ^ 31) :
    modePages r.data r.data.length
        ((if r.isModesense6 then 4 else 8) + r.blockDescriptors.length) [] =
      .ok (storedPages r.pages).reverse := by
  have hlen := r.length_data
  have hpages := @modePages_encodes r.pages [] (r.header ++ r.blockDescriptors) r.data.length h
    (by omega)
  rw [List.length_append, length_header, List.append_nil] at hpages
  exact hpages

/-- What is returned for a reply whose block descriptors have a length of eight bits. -/
theorem run_of_lt (h : r.blockDescriptors.length < 2 ^ 8) :
    scsiModesenseDatainUnmarshall r.data r.isModesense6 =
      .ok (some (r.modeSense r.blockDescriptors.length (storedPages r.pages).reverse)) := by
  have hfits := r.fits
  have hlen := r.length_data
  have hmode : r.modeDataLength = r.blockDescriptors.length +
    (r.pages.flatMap ReplyPage.encode).length + if r.isModesense6 then 3 else 6 := rfl
  have hpages := r.pages_eq (by split at hfits <;> split at hlen <;> omega)
  unfold scsiModesenseDatainUnmarshall modeSense
  cases h6 : r.isModesense6 with
  | true =>
    rw [h6] at hfits hlen hpages hmode
    simp only [if_true] at hfits hlen hpages hmode
    have hdata : r.data = UInt8.ofNat r.modeDataLength :: r.mediumType ::
        r.deviceSpecificParameter :: UInt8.ofNat r.blockDescriptors.length ::
          (r.blockDescriptors ++ r.pages.flatMap ReplyPage.encode) := by
      rw [data, header, if_pos h6]
      rfl
    have h0 : taskGetUint r.data 1 0 = r.modeDataLength := by
      rw [taskGetUint, hdata, uint_one (b := UInt8.ofNat r.modeDataLength) rfl,
        UInt8.toNat_ofNat', Nat.mod_eq_of_lt (by omega)]
    have h1 : taskGetUint r.data 1 1 = r.mediumType.toNat := by
      rw [taskGetUint, hdata]
      exact uint_one rfl
    have h2 : taskGetUint r.data 1 2 = r.deviceSpecificParameter.toNat := by
      rw [taskGetUint, hdata]
      exact uint_one rfl
    have h3 : taskGetUint r.data 1 3 = r.blockDescriptors.length := by
      rw [taskGetUint, hdata, uint_one (b := UInt8.ofNat r.blockDescriptors.length) rfl,
        UInt8.toNat_ofNat', Nat.mod_eq_of_lt (by omega)]
    simp only [if_true]
    rw [if_neg (by omega), h0, h1, h2, h3, if_neg (by omega), hpages]
    rfl
  | false =>
    rw [h6] at hfits hlen hpages hmode
    simp only [Bool.false_eq_true, if_false] at hfits hlen hpages hmode
    have hdata : r.data = be16 r.modeDataLength ++ ([r.mediumType, r.deviceSpecificParameter,
        if r.longlba then 1 else 0, 0] ++ (be16 r.blockDescriptors.length ++
          (r.blockDescriptors ++ r.pages.flatMap ReplyPage.encode))) := by
      rw [data, header, if_neg (by rw [h6]; decide)]
      simp only [List.append_assoc]
    have h0 : taskGetUint r.data 2 0 = r.modeDataLength := by
      rw [taskGetUint, hdata, uint_be16 (by omega)]
    have h2 : taskGetUint r.data 1 2 = r.mediumType.toNat := by
      rw [taskGetUint, hdata]
      exact uint_one rfl
    have h3 : taskGetUint r.data 1 3 = r.deviceSpecificParameter.toNat := by
      rw [taskGetUint, hdata]
      exact uint_one rfl
    have h4 : taskGetUint r.data 1 4 &&& 0x01 = if r.longlba then 1 else 0 := by
      rw [taskGetUint, hdata, uint_one (b := if r.longlba then 1 else 0) rfl]
      cases r.longlba <;> rfl
    have h6 : taskGetUint r.data 2 6 % 256 = r.blockDescriptors.length := by
      have hread := uint_append_right (be16 r.modeDataLength ++ [r.mediumType,
        r.deviceSpecificParameter, if r.longlba then 1 else 0, 0])
        (be16 r.blockDescriptors.length ++ (r.blockDescriptors ++
          r.pages.flatMap ReplyPage.encode)) 2 0
      rw [uint_be16 (by omega), List.append_assoc, ← hdata] at hread
      exact (congrArg (· % 256) hread).trans (Nat.mod_eq_of_lt h)
    simp only [Bool.false_eq_true, if_false]
    rw [if_neg (by omega), h0, h2, h3, h4, h6, if_neg (by omega), hpages]
    rfl

/-- The length of the block descriptors that is kept has eight bits. -/
theorem blockDescriptorLength_lt {d : List UInt8} {isModesense6 : Bool} {ms : ModeSense}
    (h : scsiModesenseDatainUnmarshall d isModesense6 = .ok (some ms)) :
    ms.blockDescriptorLength < 2 ^ 8 := by
  have hrest : ∀ {ms₀ : ModeSense} {pos : Nat}, ms₀.blockDescriptorLength < 2 ^ 8 →
      (if d.length < ms₀.modeDataLength + 1 then .ok none
        else modePages d d.length pos [] >>= fun pages => .ok (some { ms₀ with pages })) =
          (.ok (some ms) : Except Bounded.Fault (Option ModeSense)) →
            ms.blockDescriptorLength < 2 ^ 8 := by
    intro ms₀ pos hlt hrun
    by_cases hlen : d.length < ms₀.modeDataLength + 1
    · rw [if_pos hlen] at hrun
      cases hrun
    · rw [if_neg hlen] at hrun
      obtain ⟨pages, -, hpages⟩ := bind_eq_ok.1 hrun
      cases hpages
      exact hlt
  unfold scsiModesenseDatainUnmarshall at h
  cases isModesense6 with
  | true =>
    by_cases hsize : d.length < 4
    · have hnone : (.ok none : Except Bounded.Fault (Option ModeSense)) = .ok (some ms) :=
        (if_pos hsize).symm.trans h
      cases hnone
    · exact hrest (taskGetUint_lt d 1 3) ((if_neg hsize).symm.trans h)
  | false =>
    by_cases hsize : d.length < 8
    · have hnone : (.ok none : Except Bounded.Fault (Option ModeSense)) = .ok (some ms) :=
        (if_pos hsize).symm.trans h
      cases hnone
    · exact hrest (Nat.mod_lt _ (by decide)) ((if_neg hsize).symm.trans h)

end ModeReply

/-- **Which replies to MODE SENSE are parsed exactly**: those with block descriptors of less than
256 bytes in which what stands where a page is too short for a field is zero. -/
theorem modeSense_iff (r : ModeReply) :
    r.Parsed ↔ r.blockDescriptors.length < 2 ^ 8 ∧ PagesPadded r.pages := by
  constructor
  · intro h
    have hlt : r.blockDescriptors.length < 2 ^ 8 := ModeReply.blockDescriptorLength_lt h
    refine ⟨hlt, ?_⟩
    have hsame := (r.run_of_lt hlt).symm.trans h
    have hpages := congrArg ModeSense.pages (Option.some.inj (Except.ok.inj hsame))
    exact storedPages_eq_iff.1 (List.reverse_inj.1 hpages)
  · rintro ⟨hlt, hpadded⟩
    unfold ModeReply.Parsed
    rw [r.run_of_lt hlt, storedPages_eq_iff.2 hpadded]

/-- A reply with a caching page of two bytes and a vendor page: the fields of the one have what
the other says. -/
def shortCaching : ModeReply where
  isModesense6 := true
  mediumType := 0
  deviceSpecificParameter := 0
  longlba := false
  blockDescriptors := []
  pages := [⟨false, 0x08, none, [0, 0], by decide, by simp, by decide⟩,
    ⟨false, 0x20, none, [1, 2], by decide, by simp, by decide⟩]
  fits := by decide

/-- The fields of a short page are those of another page. -/
theorem modeSense_reads_on : ¬∀ r : ModeReply, r.Parsed := by
  intro h
  have hpadded := storedPages_eq_iff.1 (List.reverse_inj.1 (congrArg ModeSense.pages
    (Option.some.inj (Except.ok.inj ((shortCaching.run_of_lt (by decide)).symm.trans
      (h shortCaching))))))
  have hfield := hpadded.1 (field "disable_prefetch_transfer_length" 2 2) (by simp [modePageFields])
    (by decide)
  revert hfield
  decide

end Libiscsi.Decode
