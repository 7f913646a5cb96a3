import Mathlib

/-!
# Cyclic redundancy checks

A check that takes the bits of a message one by one, the least significant bit of each part first,
over registers of any width. Shifting the register is linear in exclusive or (`shift_xor`), so the
bits of a part may be added at once (`feed_bits`), and what a part does is looked up in a table of
its shifts (`shifts_low`). Two messages that differ in a burst of errors no longer than the register
leave different registers (`Burst.eq_of_feed`).
-/

namespace Crc

variable {w k : Nat}

/-- The register moves down by one bit, and the polynomial is added if a one falls out. -/
def shift (poly c : BitVec w) : BitVec w :=
  if c.getLsbD 0 then (c >>> 1) ^^^ poly else c >>> 1

/-- The register moves down by several bits. -/
def shifts (poly : BitVec w) : Nat → BitVec w → BitVec w
  | 0, c => c
  | n + 1, c => shifts poly n (shift poly c)

/-- A bit of the message is added where the register moves from. -/
def feedBit (poly c : BitVec w) (b : Bool) : BitVec w :=
  shift poly (c ^^^ (BitVec.ofBool b).setWidth w)

/-- The bits of a message are added one by one. -/
def feed (poly c : BitVec w) (message : List Bool) : BitVec w := message.foldl (feedBit poly) c

/-- The bits of a part of a message, the least significant one first. -/
def bits (b : BitVec k) : List Bool := (List.range k).map b.getLsbD

/-- The low bits of a register. -/
def low (k : Nat) (c : BitVec w) : BitVec w := (c.setWidth k).setWidth w

section
variable {poly : BitVec w}

theorem feed_append (c : BitVec w) (message rest : List Bool) :
    feed poly c (message ++ rest) = feed poly (feed poly c message) rest :=
  List.foldl_append

/-- A register whose lowest bit is zero only moves down. -/
theorem shift_of_zero {c : BitVec w} (h : c.getLsbD 0 = false) : shift poly c = c >>> 1 := by
  unfold shift
  rw [h, if_neg Bool.false_ne_true]

/-- Moving down is linear. -/
theorem shift_xor (a b : BitVec w) : shift poly (a ^^^ b) = shift poly a ^^^ shift poly b := by
  have hcancel : ∀ x y : BitVec w, x ^^^ poly ^^^ (y ^^^ poly) = x ^^^ y := by
    intro x y
    rw [BitVec.xor_assoc, BitVec.xor_comm y, ← BitVec.xor_assoc poly, BitVec.xor_self,
      BitVec.zero_xor]
  unfold shift
  rw [BitVec.getLsbD_xor, BitVec.ushiftRight_xor_distrib]
  cases a.getLsbD 0 with
  | false =>
    cases b.getLsbD 0 with
    | false => rfl
    | true => exact BitVec.xor_assoc _ _ _
  | true =>
    cases b.getLsbD 0 with
    | false =>
      change a >>> 1 ^^^ b >>> 1 ^^^ poly = a >>> 1 ^^^ poly ^^^ b >>> 1
      rw [BitVec.xor_assoc, BitVec.xor_assoc, BitVec.xor_comm poly]
    | true => exact (hcancel _ _).symm

theorem shifts_xor (n : Nat) (a b : BitVec w) :
    shifts poly n (a ^^^ b) = shifts poly n a ^^^ shifts poly n b := by
  induction n generalizing a b with
  | zero => rfl
  | succ n ih => rw [shifts, shift_xor, ih, ← shifts, ← shifts]

/-- A register whose low bits are zero only moves down, as long as these bits fall out. -/
theorem shifts_of_zeros {c : BitVec w} {n : Nat} (h : ∀ i < n, c.getLsbD i = false) :
    shifts poly n c = c >>> n := by
  induction n generalizing c with
  | zero => exact (BitVec.ushiftRight_zero c).symm
  | succ n ih =>
    have hrest : ∀ i < n, (c >>> 1).getLsbD i = false := by
      intro i hi
      rw [BitVec.getLsbD_ushiftRight]
      exact h _ (by omega)
    rw [shifts, shift_of_zero (h 0 (by omega)), ih hrest, ← BitVec.shiftRight_add, Nat.add_comm]

/-! ## Parts at once -/

theorem getLsbD_low (c : BitVec w) (i : Nat) :
    (low k c).getLsbD i = (decide (i < k) && c.getLsbD i) := by
  unfold low
  rw [BitVec.getLsbD_setWidth, BitVec.getLsbD_setWidth]
  by_cases hi : i < w
  · rw [decide_eq_true hi, Bool.true_and]
  · rw [BitVec.getLsbD_of_ge c i (Nat.not_lt.1 hi), Bool.and_false, Bool.and_false]

/-- What the low bits do is independent of the others, which move down. -/
theorem shifts_low (c : BitVec w) : shifts poly k c = (c >>> k) ^^^ shifts poly k (low k c) := by
  have hhigh : ∀ i < k, (c ^^^ low k c).getLsbD i = false := by
    intro i hi
    rw [BitVec.getLsbD_xor, getLsbD_low, decide_eq_true hi, Bool.true_and, Bool.xor_self]
  have hmove : (c ^^^ low k c) >>> k = c >>> k := by
    refine BitVec.eq_of_getLsbD_eq fun i _ => ?_
    rw [BitVec.getLsbD_ushiftRight, BitVec.getLsbD_xor, getLsbD_low,
      decide_eq_false (by omega), Bool.false_and, Bool.xor_false, BitVec.getLsbD_ushiftRight]
  have hsplit : c = (c ^^^ low k c) ^^^ low k c := by
    rw [BitVec.xor_assoc, BitVec.xor_self, BitVec.xor_zero]
  calc shifts poly k c = shifts poly k ((c ^^^ low k c) ^^^ low k c) := by rw [← hsplit]
    _ = (c >>> k) ^^^ shifts poly k (low k c) := by
      rw [shifts_xor, shifts_of_zeros hhigh, hmove]

/-- The bits of a number are added at once. By induction on their count: the lowest one is added
where the register moves from, and the others are then where it has moved to. -/
theorem feed_number (n : Nat) (c m : BitVec w) (h : ∀ i, n ≤ i → m.getLsbD i = false) :
    feed poly c ((List.range n).map m.getLsbD) = shifts poly n (c ^^^ m) := by
  induction n generalizing c m with
  | zero =>
    have hm : m = 0#w := BitVec.eq_of_getLsbD_eq fun i _ => by
      rw [h i (Nat.zero_le i), BitVec.getLsbD_zero]
    rw [hm, BitVec.xor_zero]
    rfl
  | succ n ih =>
    have hrest : ∀ i, n ≤ i → (m >>> 1).getLsbD i = false := by
      intro i hi
      rw [BitVec.getLsbD_ushiftRight]
      exact h _ (by omega)
    have hbits : (List.range (n + 1)).map m.getLsbD =
        m.getLsbD 0 :: (List.range n).map (m >>> 1).getLsbD := by
      rw [List.range_succ_eq_map, List.map_cons, List.map_map]
      refine congrArg _ (List.map_congr_left fun i _ => ?_)
      rw [BitVec.getLsbD_ushiftRight, Nat.add_comm]
      rfl
    have hlowest : low 1 m = (BitVec.ofBool (m.getLsbD 0)).setWidth w := by
      refine BitVec.eq_of_getLsbD_eq fun i hi => ?_
      rw [getLsbD_low, BitVec.getLsbD_setWidth, decide_eq_true hi, Bool.true_and]
      cases i with
      | zero => simp
      | succ i => simp
    have hturn : shift poly (c ^^^ m) = feedBit poly c (m.getLsbD 0) ^^^ (m >>> 1) := by
      have hshift := @shifts_low w 1 poly m
      rw [hlowest] at hshift
      unfold feedBit
      rw [shift_xor, shift_xor, BitVec.xor_assoc]
      refine congrArg (shift poly c ^^^ ·) ?_
      exact hshift.trans (BitVec.xor_comm _ _)
    rw [hbits, shifts, hturn]
    exact ih _ _ hrest

/-- The bits of a part are added at once. -/
theorem feed_bits (c : BitVec w) (b : BitVec k) (h : k ≤ w) :
    feed poly c (bits b) = shifts poly k (c ^^^ b.setWidth w) := by
  have hbits : bits b = (List.range k).map (b.setWidth w).getLsbD := by
    refine List.map_congr_left fun i hi => ?_
    rw [BitVec.getLsbD_setWidth, decide_eq_true (by have := List.mem_range.1 hi; omega),
      Bool.true_and]
  rw [hbits]
  refine feed_number k c _ fun i hi => ?_
  rw [BitVec.getLsbD_setWidth, BitVec.getLsbD_of_ge b i hi, Bool.and_false]

/-- A part by a table of what the low bits do. -/
theorem feed_table (c : BitVec w) (b : BitVec k) (h : k ≤ w) :
    feed poly c (bits b) = (c >>> k) ^^^ shifts poly k (low k (c ^^^ b.setWidth w)) := by
  have hmove : (c ^^^ b.setWidth w) >>> k = c >>> k := by
    refine BitVec.eq_of_getLsbD_eq fun i _ => ?_
    rw [BitVec.getLsbD_ushiftRight, BitVec.getLsbD_xor, BitVec.getLsbD_setWidth,
      BitVec.getLsbD_of_ge b (k + i) (by omega), Bool.and_false, Bool.xor_false,
      BitVec.getLsbD_ushiftRight]
  rw [feed_bits c b h, shifts_low, hmove]

/-! ## Bursts -/

/-- Where the polynomial has its last bit, moving down loses nothing: a one that falls out leaves
the last bit of the polynomial behind. -/
theorem shift_eq_zero (hpoly : poly.getLsbD (w - 1) = true) {c : BitVec w}
    (h : shift poly c = 0#w) : c = 0#w := by
  have hw : 0 < w := by
    by_contra hzero
    rw [BitVec.getLsbD_of_ge poly _ (by omega)] at hpoly
    cases hpoly
  cases hlow : c.getLsbD 0 with
  | true =>
    unfold shift at h
    rw [hlow, if_pos rfl] at h
    have hbit := congrArg (BitVec.getLsbD · (w - 1)) h
    simp only [BitVec.getLsbD_xor, BitVec.getLsbD_ushiftRight, BitVec.getLsbD_zero] at hbit
    rw [hpoly, BitVec.getLsbD_of_ge c _ (by omega)] at hbit
    cases hbit
  | false =>
    rw [shift_of_zero hlow] at h
    refine BitVec.eq_of_getLsbD_eq fun i _ => ?_
    rw [BitVec.getLsbD_zero]
    cases i with
    | zero => exact hlow
    | succ i =>
      have hbit := congrArg (BitVec.getLsbD · i) h
      simp only [BitVec.getLsbD_ushiftRight, BitVec.getLsbD_zero] at hbit
      rw [Nat.add_comm]
      exact hbit

theorem shifts_eq_zero (hpoly : poly.getLsbD (w - 1) = true) {n : Nat} {c : BitVec w}
    (h : shifts poly n c = 0#w) : c = 0#w := by
  induction n generalizing c with
  | zero => exact h
  | succ n ih => exact shift_eq_zero hpoly (ih h)

theorem shifts_injective (hpoly : poly.getLsbD (w - 1) = true) (n : Nat) :
    Function.Injective (shifts poly n) := by
  intro a b h
  have hzero : shifts poly n (a ^^^ b) = 0#w := by
    rw [shifts_xor, h, BitVec.xor_self]
  have hxor := congrArg (· ^^^ b) (shifts_eq_zero hpoly hzero)
  simpa [BitVec.xor_assoc] using hxor

/-- The same bits keep different registers apart. -/
theorem feed_injective (hpoly : poly.getLsbD (w - 1) = true) (message : List Bool) :
    Function.Injective (feed poly · message) := by
  induction message with
  | nil => exact Function.injective_id
  | cons b message ih =>
    intro c c' h
    have hbit : feedBit poly c b = feedBit poly c' b := ih h
    have hshift := shifts_injective hpoly 1 hbit
    simpa [BitVec.xor_assoc] using congrArg (· ^^^ (BitVec.ofBool b).setWidth w) hshift

/-- A list of bits that fits into a register is a number. -/
theorem exists_number {l : List Bool} (h : l.length ≤ w) : ∃ m : BitVec w,
    l = (List.range l.length).map m.getLsbD ∧ ∀ i, l.length ≤ i → m.getLsbD i = false := by
  have hbit : ∀ i, i < w → ((BitVec.ofBoolListLE l).setWidth w).getLsbD i = l.getD i false := by
    intro i hi
    rw [BitVec.getLsbD_setWidth, BitVec.getLsbD_ofBoolListLE, decide_eq_true hi, Bool.true_and]
  refine ⟨(BitVec.ofBoolListLE l).setWidth w, ?_, fun i hi => ?_⟩
  · refine List.ext_getElem (by simp) fun i hi hi' => ?_
    rw [List.getElem_map, List.getElem_range, hbit i (by omega), List.getD_eq_getElem _ _ hi]
  · by_cases hiw : i < w
    · rw [hbit i hiw, List.getD_eq_default _ _ hi]
    · exact BitVec.getLsbD_of_ge _ _ (by omega)

/-- Different bits that fit into the register lead to different registers. -/
theorem feed_burst (hpoly : poly.getLsbD (w - 1) = true) (c : BitVec w) {l l' : List Bool}
    (hlength : l'.length = l.length) (hfits : l.length ≤ w) (h : feed poly c l = feed poly c l') :
    l = l' := by
  obtain ⟨m, hl, hm⟩ := exists_number hfits
  obtain ⟨m', hl', hm'⟩ := exists_number (hlength ▸ hfits)
  rw [hlength] at hl' hm'
  have hfeed : shifts poly l.length (c ^^^ m) = shifts poly l.length (c ^^^ m') := by
    rw [← feed_number _ c m hm, ← feed_number _ c m' hm', ← hl, ← hl']
    exact h
  have hxor := congrArg (c ^^^ ·) (shifts_injective hpoly _ hfeed)
  have heq : m = m' := by
    simpa [← BitVec.xor_assoc] using hxor
  rw [hl, hl', heq]

/-- Two messages that differ in no more consecutive bits than a register has. -/
def Burst (w : Nat) (l l' : List Bool) : Prop :=
  ∃ before burst burst' after, l = before ++ burst ++ after ∧ l' = before ++ burst' ++ after ∧
    burst'.length = burst.length ∧ burst.length ≤ w

/-- **A burst of errors that is no longer than the register is found.** -/
theorem Burst.eq_of_feed (hpoly : poly.getLsbD (w - 1) = true) {c : BitVec w} {l l' : List Bool}
    (h : Burst w l l') (hfeed : feed poly c l = feed poly c l') : l = l' := by
  obtain ⟨before, burst, burst', after, rfl, rfl, hlength, hfits⟩ := h
  simp only [feed_append] at hfeed
  rw [feed_burst hpoly _ hlength hfits (feed_injective hpoly after hfeed)]

end

end Crc
