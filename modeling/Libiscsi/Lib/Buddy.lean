import Mathlib

/-!
# Trees of buddies

A binary tree of blocks is stored as a heap: the children of the node `p` are `2 * p` and
`2 * p + 1`. Some of its nodes are live. The value of a node is the level of the largest block below
it of which no part is live (`lt_value_iff`); the leaves have level one.
-/

namespace Buddy

variable {live live' : Finset ℕ} {h g p q : ℕ}

/-- The value of a node of a level, from those of its children. -/
def join (level l r : ℕ) : ℕ :=
  if l = level - 1 then (if r = level - 1 then level else level - 1) else max l r

/-- The value of a node at a height. -/
def value (live : Finset ℕ) : ℕ → ℕ → ℕ
  | 0, p => if p ∈ live then 0 else 1
  | h + 1, p =>
    if p ∈ live then 0 else join (h + 2) (value live h (2 * p)) (value live h (2 * p + 1))

/-- A node is below one of a height, or it is the node itself. -/
def Under (h p q : ℕ) : Prop := ∃ d ≤ h, q / 2 ^ d = p

theorem div_two_pow_succ (q d : ℕ) : q / 2 ^ (d + 1) = q / 2 ^ d / 2 := by
  rw [Nat.div_div_eq_div_mul, Nat.pow_succ]

/-- What is below a node is the node, or below one of its children. -/
theorem under_succ : Under (h + 1) p q ↔ q = p ∨ Under h (2 * p) q ∨ Under h (2 * p + 1) q := by
  constructor
  · rintro ⟨d, hd, hq⟩
    cases d with
    | zero =>
      rw [Nat.pow_zero, Nat.div_one] at hq
      exact .inl hq
    | succ d =>
      rw [div_two_pow_succ] at hq
      have hchild : q / 2 ^ d = 2 * p ∨ q / 2 ^ d = 2 * p + 1 := by omega
      exact .inr (hchild.imp (⟨d, Nat.le_of_succ_le_succ hd, ·⟩)
        (⟨d, Nat.le_of_succ_le_succ hd, ·⟩))
  · rintro (rfl | ⟨d, hd, hq⟩ | ⟨d, hd, hq⟩)
    · exact ⟨0, Nat.zero_le _, by rw [Nat.pow_zero, Nat.div_one]⟩
    · exact ⟨d + 1, Nat.succ_le_succ hd, by rw [div_two_pow_succ]; omega⟩
    · exact ⟨d + 1, Nat.succ_le_succ hd, by rw [div_two_pow_succ]; omega⟩

theorem under_zero : Under 0 p q ↔ q = p := by
  constructor
  · rintro ⟨d, hd, hq⟩
    obtain rfl := Nat.le_zero.1 hd
    rw [Nat.pow_zero, Nat.div_one] at hq
    exact hq
  · rintro rfl
    exact ⟨0, le_rfl, by rw [Nat.pow_zero, Nat.div_one]⟩

theorem under_self (h p : ℕ) : Under h p p := ⟨0, Nat.zero_le _, by rw [Nat.pow_zero, Nat.div_one]⟩

/-! ## Values -/

theorem value_of_mem (hp : p ∈ live) : value live h p = 0 := by
  cases h with
  | zero => exact if_pos hp
  | succ h => exact if_pos hp

theorem value_succ (hp : p ∉ live) : value live (h + 1) p =
    join (h + 2) (value live h (2 * p)) (value live h (2 * p + 1)) := if_neg hp

theorem value_le : value live h p ≤ h + 1 := by
  induction h generalizing p with
  | zero =>
    unfold value
    split <;> omega
  | succ h ih =>
    have hl := ih (p := 2 * p)
    have hr := ih (p := 2 * p + 1)
    unfold value join
    split
    · exact Nat.zero_le _
    · split
      · split <;> omega
      · omega

/-- The level of a free block that the value of a node tells of is that of the node, or one of those
that the values of its children tell of. -/
theorem lt_join {g l r : ℕ} (hl : l ≤ h + 1) (hr : r ≤ h + 1) : g < join (h + 2) l r ↔
    g = h + 1 ∧ l = h + 1 ∧ r = h + 1 ∨ g < l ∨ g < r := by
  unfold join
  rw [show h + 2 - 1 = h + 1 from rfl]
  split
  · split <;> omega
  · rw [lt_max_iff]
    omega

/-- A node whose value is its level has nothing live below it. -/
theorem value_eq_level_iff : value live h p = h + 1 ↔ ∀ q, Under h p q → q ∉ live := by
  induction h generalizing p with
  | zero =>
    unfold value
    simp only [under_zero, forall_eq]
    split
    · rename_i hp
      exact iff_of_false Nat.zero_ne_one fun h => h hp
    · rename_i hp
      exact iff_of_true rfl hp
  | succ h ih =>
    by_cases hp : p ∈ live
    · rw [value_of_mem hp]
      exact iff_of_false (Nat.succ_ne_zero _).symm fun hall => hall p (under_self _ _) hp
    have hl := ih (p := 2 * p)
    have hr := ih (p := 2 * p + 1)
    have hle := @value_le live (h + 1) p
    have hle₁ := @value_le live h (2 * p)
    have hle₂ := @value_le live h (2 * p + 1)
    have hlt := @lt_join h (h + 1) _ _ hle₁ hle₂
    rw [← value_succ hp] at hlt
    have hvalue : value live (h + 1) p = h + 1 + 1 ↔
        value live h (2 * p) = h + 1 ∧ value live h (2 * p + 1) = h + 1 := by omega
    rw [hvalue, hl, hr]
    simp only [under_succ]
    constructor
    · rintro ⟨hleft, hright⟩ q (rfl | hq | hq)
      · exact hp
      · exact hleft q hq
      · exact hright q hq
    · exact fun hall => ⟨fun q hq => hall q (.inr (.inl hq)), fun q hq => hall q (.inr (.inr hq))⟩

/-- The value of a node depends on the live nodes below it. -/
theorem value_congr (hlive : ∀ q, Under h p q → (q ∈ live ↔ q ∈ live')) :
    value live h p = value live' h p := by
  induction h generalizing p with
  | zero =>
    unfold value
    simp only [hlive p (under_self _ _)]
  | succ h ih =>
    have hl := ih fun q hq => hlive q (under_succ.2 (.inr (.inl hq)))
    have hr := ih fun q hq => hlive q (under_succ.2 (.inr (.inr hq)))
    unfold value
    simp only [hlive p (under_self _ _), hl, hr]

/-- A node of a height below another one: nothing is live below it, or between the two. -/
def FreeIn (live : Finset ℕ) (h p g q : ℕ) : Prop :=
  ∃ d, g + d = h ∧ q / 2 ^ d = p ∧ (∀ q', Under g q q' → q' ∉ live) ∧ ∀ e ≤ d, q / 2 ^ e ∉ live

theorem freeIn_self (hfree : ∀ q, Under h p q → q ∉ live) : FreeIn live h p h p := by
  refine ⟨0, rfl, by rw [Nat.pow_zero, Nat.div_one], hfree, fun e he => ?_⟩
  rw [Nat.le_zero.1 he, Nat.pow_zero, Nat.div_one]
  exact hfree p (under_self _ _)

/-- A free node below a child is one below the node. -/
theorem FreeIn.parent {c : ℕ} (hfree : FreeIn live h c g q) (hp : c / 2 ∉ live) :
    FreeIn live (h + 1) (c / 2) g q := by
  obtain ⟨d, hd, hq, hbelow, hpath⟩ := hfree
  refine ⟨d + 1, by omega, by rw [div_two_pow_succ, hq], hbelow, fun e he => ?_⟩
  rcases Nat.le_succ_iff.1 he with he | rfl
  · exact hpath e he
  · rw [div_two_pow_succ, hq]
    exact hp

/-- **The value of a node is the level of the largest free block below it.** By induction on the
height: a free block is the node itself, or it is below one of the children. -/
theorem lt_value_iff : g < value live h p ↔ ∃ q, FreeIn live h p g q := by
  induction h generalizing p with
  | zero =>
    constructor
    · intro hg
      have hle := @value_le live 0 p
      obtain rfl : g = 0 := by omega
      exact ⟨p, freeIn_self (value_eq_level_iff.1 (by omega))⟩
    · rintro ⟨q, d, hd, hq, -, hpath⟩
      obtain ⟨rfl, rfl⟩ := Nat.add_eq_zero_iff.1 hd
      have hlive := hpath 0 le_rfl
      rw [hq] at hlive
      unfold value
      rw [if_neg hlive]
      exact Nat.one_pos
  | succ h ih =>
    by_cases hp : p ∈ live
    · rw [value_of_mem hp]
      refine iff_of_false (Nat.not_lt_zero _) ?_
      rintro ⟨q, d, -, hq, -, hpath⟩
      exact hpath d le_rfl (hq ▸ hp)
    rw [value_succ hp, lt_join value_le value_le, ih, ih, value_eq_level_iff, value_eq_level_iff]
    constructor
    · rintro (⟨rfl, hl, hr⟩ | ⟨q, hq⟩ | ⟨q, hq⟩)
      · refine ⟨p, freeIn_self fun q hq => ?_⟩
        rcases under_succ.1 hq with rfl | hq | hq
        · exact hp
        · exact hl q hq
        · exact hr q hq
      · have hparent : 2 * p / 2 = p := by omega
        exact ⟨q, hparent ▸ hq.parent (by rw [hparent]; exact hp)⟩
      · have hparent : (2 * p + 1) / 2 = p := by omega
        exact ⟨q, hparent ▸ hq.parent (by rw [hparent]; exact hp)⟩
    · rintro ⟨q, d, hd, hq, hbelow, hpath⟩
      cases d with
      | zero =>
        rw [Nat.pow_zero, Nat.div_one] at hq
        subst hq
        obtain rfl : g = h + 1 := by omega
        exact .inl ⟨rfl, fun q' hq' => hbelow q' (under_succ.2 (.inr (.inl hq'))),
          fun q' hq' => hbelow q' (under_succ.2 (.inr (.inr hq')))⟩
      | succ d =>
        rw [div_two_pow_succ] at hq
        have hpath' : ∀ e ≤ d, q / 2 ^ e ∉ live := fun e he => hpath e (Nat.le_succ_of_le he)
        have hchild : q / 2 ^ d = 2 * p ∨ q / 2 ^ d = 2 * p + 1 := by omega
        rcases hchild with hchild | hchild
        · exact .inr (.inl ⟨q, d, by omega, hchild, hbelow, hpath'⟩)
        · exact .inr (.inr ⟨q, d, by omega, hchild, hbelow, hpath'⟩)

end Buddy
