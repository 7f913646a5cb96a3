import Mathlib

/-!
# Strings that end with a NUL

A buffer that holds strings, each followed by a NUL byte. `first` is what stands before the first
NUL of the buffer, so that `memchr` finds one exactly if that is not the whole buffer.
-/

namespace CString

/-- The bytes of a literal. -/
def ofString (s : String) : List UInt8 := s.toList.map fun c => UInt8.ofNat c.toNat

/-- The bytes before the first NUL, or all of them. -/
def first (data : List UInt8) : List UInt8 := data.takeWhile (· != 0)

variable {data s rest : List UInt8}

/-- A string has no NUL in it. -/
theorem zero_notMem_first (data : List UInt8) : 0 ∉ first data := fun h => by
  simpa using List.mem_takeWhile_imp h

/-- The string a buffer begins with. -/
theorem first_append (h : 0 ∉ s) (rest : List UInt8) : first (s ++ 0 :: rest) = s := by
  have hall : ∀ b ∈ s, (b != 0) = true := fun b hb => by
    rw [bne_iff_ne]
    rintro rfl
    exact h hb
  rw [first, List.takeWhile_append_of_pos hall, List.takeWhile_cons_of_neg (by simp),
    List.append_nil]

/-- A buffer begins with its first string, whose NUL follows it. -/
theorem eq_first_append (h : (first data).length ≠ data.length) :
    data = first data ++ 0 :: data.drop ((first data).length + 1) := by
  induction data with
  | nil => exact absurd rfl h
  | cons b data ih =>
    by_cases hb : b = 0
    · subst hb
      simp [first]
    · have hcons : first (b :: data) = b :: first data := by
        rw [first, List.takeWhile_cons_of_pos (by simpa using hb), first]
      rw [hcons] at h ⊢
      rw [List.length_cons, List.length_cons] at h
      rw [List.length_cons, List.drop_succ_cons, List.cons_append, ← ih (by omega)]

/-- What follows the first string. -/
theorem drop_append (s rest : List UInt8) : (s ++ 0 :: rest).drop (s.length + 1) = rest := by
  rw [← List.drop_drop, List.drop_left, List.drop_succ_cons, List.drop_zero]

end CString
