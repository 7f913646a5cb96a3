import Mathlib

/-!
# Segments that tile a range

A segment is a pair of an offset and a length. `Tiles a b l` says that the segments `l` stand one
after the other from the offset `a` to the offset `b`. Then every offset of the range is in
exactly one of them, and what they cut out of a list is what stands there between `a` and `b`.
-/

namespace Tiling

/-- The segments stand one after the other from `a` to `b`. -/
def Tiles : Nat → Nat → List (Nat × Nat) → Prop
  | a, b, [] => a = b
  | a, b, s :: l => s.1 = a ∧ Tiles (a + s.2) b l

/-- The offset is in the segment. -/
def Covers (i : Nat) (s : Nat × Nat) : Prop := s.1 ≤ i ∧ i < s.1 + s.2

instance (i : Nat) (s : Nat × Nat) : Decidable (Covers i s) :=
  inferInstanceAs (Decidable (_ ∧ _))

/-- The elements of a list in a segment. -/
def slice {α : Type*} (xs : List α) (s : Nat × Nat) : List α := (xs.drop s.1).take s.2

namespace Tiles

variable {a b c : Nat} {s : Nat × Nat} {l l' : List (Nat × Nat)}

@[simp] theorem nil : Tiles a b [] ↔ a = b := .rfl

@[simp] theorem cons : Tiles a b (s :: l) ↔ s.1 = a ∧ Tiles (a + s.2) b l := .rfl

theorem single (a n : Nat) : Tiles a (a + n) [(a, n)] := by simp

/-- The length of the range is that of the segments. -/
theorem length (h : Tiles a b l) : b = a + (l.map Prod.snd).sum := by
  induction l generalizing a with
  | nil => simpa using h.symm
  | cons s l ih =>
    rw [List.map_cons, List.sum_cons, ih h.2]
    omega

/-- Ranges that follow one another. -/
theorem append (h : Tiles a b l) (h' : Tiles b c l') : Tiles a c (l ++ l') := by
  induction l generalizing a with
  | nil =>
    obtain rfl : a = b := h
    exact h'
  | cons s l ih => exact ⟨h.1, ih h.2⟩

/-- A segment lies in the range. -/
theorem mem_le (h : Tiles a b l) (hs : s ∈ l) : a ≤ s.1 ∧ s.1 + s.2 ≤ b := by
  induction l generalizing a with
  | nil => cases hs
  | cons s' l ih =>
    have hb := length h.2
    rcases List.mem_cons.1 hs with rfl | hs
    · rw [h.1]
      omega
    · have := ih h.2 hs
      omega

/-- **Every offset of the range is in exactly one segment**, any other in none. -/
theorem countP_covers (h : Tiles a b l) (i : Nat) :
    (l.countP fun s => Covers i s) = if a ≤ i ∧ i < b then 1 else 0 := by
  induction l generalizing a with
  | nil =>
    obtain rfl : a = b := h
    rw [List.countP_nil, if_neg (by omega)]
  | cons s l ih =>
    have hb := length h.2
    rw [List.countP_cons, ih h.2]
    simp only [Covers, h.1, decide_eq_true_eq]
    split_ifs <;> omega

end Tiles

end Tiling
