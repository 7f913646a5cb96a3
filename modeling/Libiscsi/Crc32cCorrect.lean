import Libiscsi.Crc32c
import Libiscsi.Lib.Crc

/-!
# The digest is the standard one

CRC32C is given by its polynomial, its initial value and its final one, and takes the bits of a
message one by one. The code takes bytes, by a table (`crc32cStep_eq`), and so any pieces of a
message one after the other (`crc32c_standard`).
-/

namespace Libiscsi

/-- The polynomial of CRC32C, with the highest power first. -/
def crc32cPolynomial : BitVec 32 := 0x1EDC6F41#32

/-- CRC32C, bit by bit: the register is reflected, starts with ones and is inverted in the end. -/
def crc32cSerial (buf : List UInt8) : BitVec 32 :=
  Crc.feed crc32cPolynomial.reverse 0xFFFFFFFF#32 (buf.flatMap fun b => Crc.bits b.toBitVec) ^^^
    0xFFFFFFFF#32

/-- `crc32c_init`. -/
def crc32cInit : UInt32 := 0xffffffff

/-- The table holds what the eight bits of its index do. -/
theorem crctable_eq {i : UInt32} (h : i < 256) :
    (crctable.getD i.toNat 0).toBitVec = Crc.shifts crc32cPolynomial.reverse 8 i.toBitVec := by
  have hall : ∀ k : Fin 256, (crctable.getD k 0).toBitVec =
      Crc.shifts crc32cPolynomial.reverse 8 (BitVec.ofNat 32 k) := by
    decide +kernel
  have hi : BitVec.ofNat 32 i.toNat = i.toBitVec := by
    rw [← UInt32.toNat_toBitVec, BitVec.ofNat_toNat, BitVec.setWidth_eq]
  exact (hall ⟨i.toNat, UInt32.lt_iff_toNat_lt.1 h⟩).trans
    (congrArg (Crc.shifts crc32cPolynomial.reverse 8) hi)

/-- The index is the low byte. -/
theorem low_eight (c : BitVec 32) : Crc.low 8 c = c &&& 0xFF#32 := by
  refine BitVec.eq_of_getLsbD_eq fun i _ => ?_
  rw [Crc.getLsbD_low, BitVec.getLsbD_and, Bool.and_comm]
  have hmask : (0xFF#32).getLsbD i = decide (i < 8) := by
    rw [BitVec.getLsbD_ofNat, show 0xFF = 2 ^ 8 - 1 from rfl, Nat.testBit_two_pow_sub_one]
    simp only [Bool.and_eq_right_iff_imp, decide_eq_true_eq]
    omega
  rw [hmask]

/-- A byte by the table is its eight bits. -/
theorem crc32cStep_eq (crc : UInt32) (b : UInt8) : (crc32cStep crc b).toBitVec =
    Crc.feed crc32cPolynomial.reverse crc.toBitVec (Crc.bits b.toBitVec) := by
  have hindex : (crc ^^^ b.toUInt32) &&& 0xFF < 256 := by
    rw [UInt32.lt_iff_toNat_lt, UInt32.toNat_and]
    exact Nat.and_lt_two_pow _ (by decide : (0xFF : UInt32).toNat < 2 ^ 8)
  have hlow : ((crc ^^^ b.toUInt32) &&& 0xFF).toBitVec =
      Crc.low 8 (crc.toBitVec ^^^ b.toBitVec.setWidth 32) := by
    rw [low_eight]
    rfl
  unfold crc32cStep
  rw [UInt32.toBitVec_xor, crctable_eq hindex, hlow, Crc.feed_table _ _ (by decide)]
  rfl

/-- The bytes of a piece are its bits. -/
theorem crc32cChain_eq (crc : UInt32) (buf : List UInt8) : (crc32cChain crc buf).toBitVec =
    Crc.feed crc32cPolynomial.reverse crc.toBitVec
      (buf.flatMap fun b => Crc.bits b.toBitVec) := by
  induction buf generalizing crc with
  | nil => rfl
  | cons b buf ih =>
    have hrest := ih (crc32cStep crc b)
    rw [crc32cStep_eq, ← Crc.feed_append] at hrest
    rw [List.flatMap_cons]
    exact hrest

/-- The pieces one after the other are all of it. -/
theorem crc32cChain_flatten (crc : UInt32) (pieces : List (List UInt8)) :
    pieces.foldl crc32cChain crc = crc32cChain crc pieces.flatten := by
  induction pieces generalizing crc with
  | nil => rfl
  | cons piece pieces ih =>
    rw [List.foldl_cons, ih, List.flatten_cons, crc32cChain_append]

/-- **The digest is CRC32C, in one piece or in any.** -/
theorem crc32c_standard : (∀ buf, (crc32c buf).toBitVec = crc32cSerial buf) ∧
    ∀ pieces : List (List UInt8),
      crc32cChainDone (pieces.foldl crc32cChain crc32cInit) = crc32c pieces.flatten := by
  constructor
  · intro buf
    have hchain := crc32cChain_eq crc32cInit buf
    unfold crc32c crc32cChainDone crc32cSerial
    exact (UInt32.toBitVec_xor _ _).trans (congrArg (· ^^^ 0xFFFFFFFF#32) hchain)
  · intro pieces
    rw [crc32cChain_flatten]
    rfl

end Libiscsi
