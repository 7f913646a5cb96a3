import Libiscsi.Decode
import Libiscsi.UnmarshallCorrect

/-!
# The descriptors of READ TOC

A reply to READ TOC has a header of four bytes and descriptors of eight or eleven bytes, by the
format that the CDB asks for. The number of descriptors that is returned is not the one of the
reply unless this is small, and the upper halves of bytes are not shifted down (`readtoc_iff`).
-/

namespace Libiscsi.Decode

open Bounded Unmarshall Outcome

/-! ## Replies -/

/-- `enum scsi_readtoc_fmt`, as far as it is supported. -/
inductive TocFormat where
  | toc
  | sessionInfo
  | fullToc
  deriving DecidableEq, Repr

/-- The format in the CDB. -/
def TocFormat.code : TocFormat → UInt8
  | .toc => 0
  | .sessionInfo => 1
  | .fullToc => 2

/-- The size of a descriptor. -/
def TocFormat.size : TocFormat → Nat
  | .fullToc => 11
  | _ => 8

/-- The values in a descriptor, of which `get` reads the number of a width at an offset. -/
def TocFormat.decode (get : Nat → Nat → Nat) : TocFormat → ReadtocDesc
  | .toc => .toc (get 1 1 / 16) (get 1 1 % 16) (get 1 2) (get 4 4)
  | .sessionInfo => .ses (get 1 1 / 16) (get 1 1 % 16) (get 1 2) (get 4 4)
  | .fullToc => .full (get 1 0) (get 1 1 / 16) (get 1 1 % 16) (get 1 2) (get 1 3) (get 1 4)
      (get 1 5) (get 1 6) (get 1 7) (get 1 8) (get 1 9) (get 1 10)

/-- A reply to a READ TOC, with the bytes of its descriptors. -/
structure TocReply where
  format : TocFormat
  cdb : List UInt8
  first : UInt8
  last : UInt8
  entries : List (List UInt8)
  format_cdb : cdb.getD 2 0 &&& 0xf = format.code
  sized : ∀ e ∈ entries, e.length = format.size
  fits : 2 + format.size * entries.length < 2 ^ 16

namespace TocReply
variable (r : TocReply)

/-- The TOC data length, the first and the last track. -/
def header : List UInt8 :=
  let len := 2 + r.format.size * r.entries.length
  [UInt8.ofNat (len / 256), UInt8.ofNat len, r.first, r.last]

/-- The data of the reply. -/
def data : List UInt8 := r.header ++ (r.entries.flatten ++ [])

/-- The reply is parsed into its descriptors. -/
def Parsed : Prop :=
  ∃ list, scsiReadtocDatainUnmarshall r.cdb r.data = .ok (some list) ∧
    list.num = r.entries.length ∧ list.first = r.first.toNat ∧ list.last = r.last.toNat ∧
    list.desc = r.entries.map fun e => r.format.decode (uint e)

/-- There are no descriptors; or it is a full TOC of at most three, the upper half of the second
byte of each of which is zero, and the lower half of the first. -/
def Kept : Prop :=
  r.entries = [] ∨ r.format = .fullToc ∧ r.entries.length ≤ 3 ∧
    ∀ e ∈ r.entries, uint e 1 1 / 16 = 0 ∧ uint e 1 0 % 16 = 0

end TocReply

/-! ## One descriptor -/

/-- The values that are stored for a descriptor. -/
def TocFormat.stored (get : Nat → Nat → Nat) : TocFormat → ReadtocDesc
  | .toc => .toc (get 1 1 &&& 0xf0) (get 1 1 &&& 0x0f) (get 1 2) (get 4 4)
  | .sessionInfo => .ses (get 1 1 &&& 0xf0) (get 1 1 &&& 0x0f) (get 1 2) (get 4 4)
  | .fullToc => .full (get 1 0 &&& 0xf0) (get 1 1 &&& 0xf0) (get 1 1 &&& 0x0f) (get 1 2) (get 1 3)
      (get 1 4) (get 1 5) (get 1 6) (get 1 7) (get 1 8) (get 1 9) (get 1 10)

/-- The fields of a descriptor are read at its offset. -/
theorem readtocDesc_eq {d : List UInt8} {f : TocFormat} {i : Nat}
    (hi : 4 + f.size * i + 10 < 2 ^ 31) :
    scsiReadtocDescUnmarshall d f.code i =
      .ok (f.stored fun width k => uint d width (4 + f.size * i + k)) := by
  cases f with
  | toc =>
    change 4 + 8 * i + 10 < 2 ^ 31 at hi
    change (number d 1 (4 + 8 * i + 1) >>= _) = _
    rw [number_of_lt (by omega), number_of_lt (by omega), number_of_lt (by omega)]
    rfl
  | sessionInfo =>
    change 4 + 8 * i + 10 < 2 ^ 31 at hi
    change (number d 1 (4 + 8 * i + 1) >>= _) = _
    rw [number_of_lt (by omega), number_of_lt (by omega), number_of_lt (by omega)]
    rfl
  | fullToc =>
    change 4 + 11 * i + 10 < 2 ^ 31 at hi
    change (number d 1 (4 + 11 * i + 0) >>= _) = _
    rw [number_of_lt (by omega), number_of_lt (by omega), number_of_lt (by omega),
      number_of_lt (by omega), number_of_lt (by omega), number_of_lt (by omega),
      number_of_lt (by omega), number_of_lt (by omega), number_of_lt (by omega),
      number_of_lt (by omega), number_of_lt (by omega)]
    rfl

/-- The halves of a byte, as they are masked. -/
theorem and_halves : ∀ b < 256, b &&& 0xf0 = b / 16 * 16 ∧ b &&& 0x0f = b % 16 := by
  decide +kernel

/-- A descriptor of a full TOC is stored as it is exactly if what is masked is zero. -/
theorem stored_fullToc {e : List UInt8} : TocFormat.fullToc.stored (uint e) =
    TocFormat.fullToc.decode (uint e) ↔ uint e 1 1 / 16 = 0 ∧ uint e 1 0 % 16 = 0 := by
  obtain ⟨hhigh, hlow⟩ := and_halves _ (taskGetUint_lt e 1 1)
  obtain ⟨hsession, -⟩ := and_halves _ (taskGetUint_lt e 1 0)
  unfold taskGetUint at hhigh hlow hsession
  simp only [TocFormat.stored, TocFormat.decode, hhigh, hlow, hsession, ReadtocDesc.full.injEq,
    and_true]
  omega

/-! ## The list -/

theorem tdiv_eight (a : Int) : 0 ≤ a ∧ a.tdiv 8 = a / 8 ∨ a < 0 ∧ a.tdiv 8 = -(-a / 8) :=
  tdiv_cases a 8

namespace TocReply
variable (r : TocReply)

theorem size_cases : r.format.size = 8 ∨ r.format.size = 11 := by
  cases r.format with
  | toc => exact .inl rfl
  | sessionInfo => exact .inl rfl
  | fullToc => exact .inr rfl

/-- The data is its header and its descriptors. -/
theorem length_data : r.data.length = 4 + r.format.size * r.entries.length := by
  have hflat : r.entries.flatten.length = r.format.size * r.entries.length := by
    rw [List.length_flatten, List.map_congr_left r.sized, List.map_const', List.sum_replicate,
      smul_eq_mul, Nat.mul_comm]
  rw [data, List.append_nil, List.length_append, hflat]
  rfl

/-- The length that the data declares. -/
theorem dataLength_data : taskGetUint r.data 2 0 = 2 + r.format.size * r.entries.length := by
  have hfits := r.fits
  have hhead : taskGetUint r.data 2 0 = uint r.header 2 0 := uint_append_left (by simp [header])
  have hvalue : uint r.header 2 0 =
      (UInt8.ofNat ((2 + r.format.size * r.entries.length) / 256)).toNat * 256 +
        (UInt8.ofNat (2 + r.format.size * r.entries.length)).toNat := by
    simp [uint, header, beNat]
  rw [hhead, hvalue, UInt8.toNat_ofNat', UInt8.toNat_ofNat']
  omega

/-- The number of descriptors that is returned. -/
def numDesc : Nat := ((2 + r.format.size * r.entries.length : Nat) - 4 : Int).tdiv 8 |>.toNat

theorem numDesc_eq :
    ((2 + r.format.size * r.entries.length : Nat) - 4 : Int).tdiv 8 = (r.numDesc : Nat) := by
  unfold numDesc
  have hdiv := tdiv_eight ((2 + r.format.size * r.entries.length : Nat) - 4 : Int)
  omega

/-- The list that is returned. -/
theorem run_eq : scsiReadtocDatainUnmarshall r.cdb r.data = .ok (some
    { num := r.numDesc, first := r.first.toNat, last := r.last.toNat
      desc := (List.range r.numDesc).map fun i =>
        r.format.stored fun width k => uint r.data width (4 + r.format.size * i + k) }) := by
  have hfits := r.fits
  have hlen := r.length_data
  have hdl := r.dataLength_data
  have hnum := r.numDesc_eq
  have hsize := r.size_cases
  have hmod : ((2 + r.format.size * r.entries.length + 2) % 2 ^ 16 : Nat) - (2 : Int) =
      (2 + r.format.size * r.entries.length : Nat) := by
    rcases hsize with h | h <;> rw [h] at hfits ⊢ <;> omega
  have hle : r.numDesc < 2 ^ 16 := by
    have hdiv := tdiv_eight ((2 + r.format.size * r.entries.length : Nat) - 4 : Int)
    omega
  have hfirst : taskGetUint r.data 1 2 = r.first.toNat := uint_one rfl
  have hlast : taskGetUint r.data 1 3 = r.last.toNat := uint_one rfl
  unfold scsiReadtocDatainUnmarshall
  rw [if_neg (by omega)]
  simp only
  rw [hdl, hmod, if_neg (by omega), hnum, scsiMalloc_of_nonneg (by omega) (by omega),
    within_of_le (by omega), ok_bind, r.format_cdb,
    mapM_eq_ok (g := fun i => r.format.stored fun width k =>
      uint r.data width (4 + r.format.size * i + k)), ok_bind, hfirst, hlast]
  · congr 3
    omega
  · intro i hi
    have hi := List.mem_range.1 hi
    rw [within_of_le (by omega), ok_bind, readtocDesc_eq]
    rcases hsize with h | h <;> rw [h] <;> omega

/-- A descriptor of the reply is read from its own bytes. -/
theorem stored_entry {i : Nat} {e : List UInt8} (he : r.entries[i]? = some e) :
    (r.format.stored fun width k => uint r.data width (4 + r.format.size * i + k)) =
      r.format.stored (uint e) := by
  have hread : ∀ {width k : Nat}, k + width ≤ r.format.size →
      uint r.data width (4 + r.format.size * i + k) = uint e width k := by
    intro width k hk
    rw [← @uint_entry _ _ _ hk _ r.header [] _ _ r.sized he, Nat.add_assoc]
    rfl
  cases hf : r.format with
  | toc =>
    rw [hf] at hread
    simp only [TocFormat.stored]
    rw [hread (by decide), hread (by decide), hread (by decide)]
  | sessionInfo =>
    rw [hf] at hread
    simp only [TocFormat.stored]
    rw [hread (by decide), hread (by decide), hread (by decide)]
  | fullToc =>
    rw [hf] at hread
    simp only [TocFormat.stored]
    rw [hread (by decide), hread (by decide), hread (by decide), hread (by decide),
      hread (by decide), hread (by decide), hread (by decide), hread (by decide),
      hread (by decide), hread (by decide), hread (by decide)]

/-- If as many descriptors are returned as there are, they are those of the reply, as stored. -/
theorem desc_eq (h : r.numDesc = r.entries.length) :
    (List.range r.numDesc).map (fun i =>
        r.format.stored fun width k => uint r.data width (4 + r.format.size * i + k)) =
      r.entries.map fun e => r.format.stored (uint e) := by
  refine List.ext_getElem (by simp [h]) fun i hi hi' => ?_
  rw [List.length_map] at hi'
  rw [List.getElem_map, List.getElem_map, List.getElem_range]
  exact r.stored_entry (List.getElem?_eq_getElem hi')

/-- The number of descriptors is right exactly if there are none, or few in a full TOC. -/
theorem numDesc_eq_iff : r.numDesc = r.entries.length ↔
    r.entries = [] ∨ r.format = .fullToc ∧ r.entries.length ≤ 3 := by
  have hnum := r.numDesc_eq
  have hdiv := tdiv_eight ((2 + r.format.size * r.entries.length : Nat) - 4 : Int)
  rw [← List.length_eq_zero_iff]
  cases hf : r.format with
  | toc =>
    have hsize : r.format.size = 8 := by rw [hf]; rfl
    rw [hsize] at hnum hdiv
    simp only [reduceCtorEq, false_and, or_false]
    omega
  | sessionInfo =>
    have hsize : r.format.size = 8 := by rw [hf]; rfl
    rw [hsize] at hnum hdiv
    simp only [reduceCtorEq, false_and, or_false]
    omega
  | fullToc =>
    have hsize : r.format.size = 11 := by rw [hf]; rfl
    rw [hsize] at hnum hdiv
    simp only [true_and]
    omega

end TocReply

/-- **Which replies to READ TOC are parsed into their descriptors.** -/
theorem readtoc_iff (r : TocReply) : r.Parsed ↔ r.Kept := by
  have hcount := r.numDesc_eq_iff
  constructor
  · rintro ⟨list, hrun, hnum, -, -, hdesc⟩
    cases r.run_eq.symm.trans hrun
    simp only at hnum hdesc
    rw [r.desc_eq hnum] at hdesc
    rcases hcount.1 hnum with hnil | ⟨hfull, hle⟩
    · exact .inl hnil
    · refine .inr ⟨hfull, hle, fun e he => ?_⟩
      have hsame := List.map_inj_left.1 hdesc e he
      rw [hfull] at hsame
      exact stored_fullToc.1 hsame
  · intro hkept
    have hnum : r.numDesc = r.entries.length := by
      rcases hkept with hnil | ⟨hfull, hle, -⟩
      · exact hcount.2 (.inl hnil)
      · exact hcount.2 (.inr ⟨hfull, hle⟩)
    refine ⟨_, r.run_eq, hnum, rfl, rfl, ?_⟩
    simp only
    rw [r.desc_eq hnum]
    rcases hkept with hnil | ⟨hfull, -, hzero⟩
    · rw [hnil]
      rfl
    · refine List.map_congr_left fun e he => ?_
      rw [hfull]
      exact stored_fullToc.2 (hzero e he)

/-- The reply to a READ TOC with one track: it is lost. -/
theorem readtoc_loses : ¬∀ r : TocReply, r.Parsed := by
  intro h
  have hkept := (h ⟨.toc, [0x43, 0, 0, 0, 0, 0, 0, 0, 12, 0], 1, 1, [[0, 0x14, 1, 0, 0, 0, 0, 0]],
    by decide, by decide, by decide⟩)
  obtain ⟨list, hrun, hnum, -⟩ := hkept
  cases (TocReply.run_eq _).symm.trans hrun
  revert hnum
  decide

end Libiscsi.Decode
