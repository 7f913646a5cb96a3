import Libiscsi.Lib.Outcome

/-!
# A queue with numbered elements

A queue holds elements of three roles. Numbered elements carry consecutive numbers in queue order.
Leading elements stand before all of them and carry the number of the first. Trailing elements
carry the number of the last numbered element before them, or of the last one that has left the
queue. `Windowed` says so of the numbers, counted from the last number that left the queue.

The queue is kept by sorted insertion (`insertBy`), by taking its head, and by removing elements
and renumbering what follows them.
-/

namespace Numbering

/-- How an element of the queue is numbered. -/
inductive Role where
  | numbered
  | leading
  | trailing
  deriving DecidableEq, Repr

variable {α : Type*} {role role' : α → Role} {off off' : α → Nat}

/-- The number of numbered elements. -/
def count (role : α → Role) (l : List α) : Nat := l.countP fun a => role a = .numbered

@[simp] theorem count_nil : count role [] = 0 := rfl

theorem count_cons (a : α) (l : List α) :
    count role (a :: l) = count role l + if role a = .numbered then 1 else 0 := by
  simp [count, List.countP_cons]

theorem count_cons_numbered {a : α} {l : List α} (h : role a = .numbered) :
    count role (a :: l) = count role l + 1 := by
  rw [count_cons, if_pos h]

theorem count_cons_of_ne {a : α} {l : List α} (h : role a ≠ .numbered) :
    count role (a :: l) = count role l := by
  rw [count_cons, if_neg h, Nat.add_zero]

theorem count_append (l l' : List α) : count role (l ++ l') = count role l + count role l' := by
  simp [count]

theorem count_congr {l : List α} (h : ∀ a ∈ l, role' a = role a) :
    count role' l = count role l :=
  List.countP_congr fun a ha => by simp [h a ha]

/-- What is removed and what stays make up the queue. -/
theorem count_filter (rm : α → Bool) (l : List α) :
    count role (l.filter fun a => !rm a) +
      l.countP (fun a => rm a && decide (role a = .numbered)) = count role l := by
  induction l with
  | nil => rfl
  | cons a l ih =>
    rw [List.countP_cons, count_cons]
    cases hrm : rm a with
    | true =>
      rw [List.filter_cons_of_neg (by simp [hrm])]
      simp only [Bool.true_and, decide_eq_true_eq]
      omega
    | false =>
      rw [List.filter_cons_of_pos (by simp [hrm]), count_cons]
      simp only [Bool.false_and, Bool.false_eq_true, if_false]
      omega

/-- The numbers of a queue that follows `k` numbered elements. -/
def Windowed (role : α → Role) (off : α → Nat) : Nat → List α → Prop
  | _, [] => True
  | k, a :: l =>
    match role a with
    | .numbered => off a = k + 1 ∧ Windowed role off (k + 1) l
    | .leading => k = 0 ∧ off a = 1 ∧ Windowed role off k l
    | .trailing => off a = k ∧ Windowed role off k l

namespace Windowed

variable {k : Nat} {a : α} {l : List α}

theorem cons_numbered (h : role a = .numbered) :
    Windowed role off k (a :: l) ↔ off a = k + 1 ∧ Windowed role off (k + 1) l := by
  simp [Windowed, h]

theorem cons_leading (h : role a = .leading) :
    Windowed role off k (a :: l) ↔ k = 0 ∧ off a = 1 ∧ Windowed role off k l := by
  simp [Windowed, h]

theorem cons_trailing (h : role a = .trailing) :
    Windowed role off k (a :: l) ↔ off a = k ∧ Windowed role off k l := by
  simp [Windowed, h]

/-- The roles and the numbers of the elements are all that counts. -/
theorem congr (h : Windowed role off k l) (hrole : ∀ a ∈ l, role' a = role a)
    (hoff : ∀ a ∈ l, off' a = off a) : Windowed role' off' k l := by
  induction l generalizing k with
  | nil => trivial
  | cons a l ih =>
    have ha := hoff a (by simp)
    have hra := hrole a (by simp)
    have hl := fun b hb => hoff b (List.mem_cons_of_mem _ hb)
    have hrl := fun b hb => hrole b (List.mem_cons_of_mem _ hb)
    cases hr : role a with
    | numbered =>
      rw [cons_numbered hr] at h
      rw [cons_numbered (hra.trans hr)]
      exact ⟨ha.trans h.1, ih h.2 hrl hl⟩
    | leading =>
      rw [cons_leading hr] at h
      rw [cons_leading (hra.trans hr)]
      exact ⟨h.1, ha.trans h.2.1, ih h.2.2 hrl hl⟩
    | trailing =>
      rw [cons_trailing hr] at h
      rw [cons_trailing (hra.trans hr)]
      exact ⟨ha.trans h.1, ih h.2 hrl hl⟩

/-- **The numbered elements carry consecutive numbers.** -/
theorem offsets (h : Windowed role off k l) :
    (l.filter fun a => role a = .numbered).map off = List.range' (k + 1) (count role l) := by
  induction l generalizing k with
  | nil => rfl
  | cons a l ih =>
    cases hr : role a with
    | numbered =>
      rw [cons_numbered hr] at h
      rw [List.filter_cons_of_pos (by simp [hr]), List.map_cons, ih h.2, h.1,
        count_cons_numbered hr, List.range'_succ]
    | leading =>
      rw [cons_leading hr] at h
      rw [List.filter_cons_of_neg (by simp [hr]), ih h.2.2, count_cons_of_ne (by simp [hr])]
    | trailing =>
      rw [cons_trailing hr] at h
      rw [List.filter_cons_of_neg (by simp [hr]), ih h.2, count_cons_of_ne (by simp [hr])]

/-- The first part of a queue. -/
theorem append_left {l' : List α} (h : Windowed role off k (l ++ l')) :
    Windowed role off k l := by
  induction l generalizing k with
  | nil => trivial
  | cons a l ih =>
    rw [List.cons_append] at h
    cases hr : role a with
    | numbered =>
      rw [cons_numbered hr] at h ⊢
      exact ⟨h.1, ih h.2⟩
    | leading =>
      rw [cons_leading hr] at h ⊢
      exact ⟨h.1, h.2.1, ih h.2.2⟩
    | trailing =>
      rw [cons_trailing hr] at h ⊢
      exact ⟨h.1, ih h.2⟩

/-- The second part of a queue is numbered from what the first part holds. -/
theorem append_right {l' : List α} (h : Windowed role off k (l ++ l')) :
    Windowed role off (k + count role l) l' := by
  induction l generalizing k with
  | nil => simpa using h
  | cons a l ih =>
    rw [List.cons_append] at h
    cases hr : role a with
    | numbered =>
      rw [cons_numbered hr] at h
      rw [count_cons_numbered hr, show k + (count role l + 1) = k + 1 + count role l by omega]
      exact ih h.2
    | leading =>
      rw [cons_leading hr] at h
      rw [count_cons_of_ne (by simp [hr])]
      exact ih h.2.2
    | trailing =>
      rw [cons_trailing hr] at h
      rw [count_cons_of_ne (by simp [hr])]
      exact ih h.2

/-- No number exceeds the first number by more than the numbered elements are many. -/
theorem off_le (h : Windowed role off k l) (ha : a ∈ l) : off a ≤ k + count role l + 1 := by
  induction l generalizing k with
  | nil => simp at ha
  | cons b l ih =>
    cases hr : role b with
    | numbered =>
      rw [cons_numbered hr] at h
      rw [count_cons_numbered hr]
      rcases List.mem_cons.1 ha with rfl | ha
      · omega
      · have := ih h.2 ha
        omega
    | leading =>
      rw [cons_leading hr] at h
      rw [count_cons_of_ne (by simp [hr])]
      rcases List.mem_cons.1 ha with rfl | ha
      · omega
      · exact ih h.2.2 ha
    | trailing =>
      rw [cons_trailing hr] at h
      rw [count_cons_of_ne (by simp [hr])]
      rcases List.mem_cons.1 ha with rfl | ha
      · omega
      · exact ih h.2 ha

/-- The number of an element is at least the number of numbered elements before it. -/
theorem count_le_off {l' : List α} (h : Windowed role off k (l ++ a :: l')) :
    k + count role l ≤ off a := by
  have h := h.append_right
  cases hr : role a with
  | numbered =>
    rw [cons_numbered hr] at h
    omega
  | leading =>
    rw [cons_leading hr] at h
    omega
  | trailing =>
    rw [cons_trailing hr] at h
    omega

/-- What follows `k + 1` numbered elements has a number greater than `k`. -/
theorem lt_off (h : Windowed role off (k + 1) l) (ha : a ∈ l) : k < off a := by
  induction l generalizing k with
  | nil => simp at ha
  | cons b l ih =>
    cases hr : role b with
    | numbered =>
      rw [cons_numbered hr] at h
      rcases List.mem_cons.1 ha with rfl | ha
      · omega
      · have := ih h.2 ha
        omega
    | leading =>
      rw [cons_leading hr] at h
      omega
    | trailing =>
      rw [cons_trailing hr] at h
      rcases List.mem_cons.1 ha with rfl | ha
      · omega
      · exact ih h.2 ha

/-- Counting from the next number. -/
theorem shift (h : Windowed role off (k + 1) l) (hoff : ∀ a ∈ l, off' a + 1 = off a) :
    Windowed role off' k l := by
  induction l generalizing k with
  | nil => trivial
  | cons a l ih =>
    have ha := hoff a (by simp)
    have hl := fun b hb => hoff b (List.mem_cons_of_mem _ hb)
    cases hr : role a with
    | numbered =>
      rw [cons_numbered hr] at h ⊢
      exact ⟨by omega, ih h.2 hl⟩
    | leading =>
      rw [cons_leading hr] at h
      omega
    | trailing =>
      rw [cons_trailing hr] at h ⊢
      exact ⟨by omega, ih h.2 hl⟩

/-- **Elements are removed and what follows them is renumbered** by the numbered elements that
were removed before it; `g` of them were removed before the queue. -/
theorem filter {rm : α → Bool} {g : Nat} (h : Windowed role off (k + g) l)
    (hoff : ∀ l₁ a l₂, l = l₁ ++ a :: l₂ → rm a = false →
      off' a + g + (l₁.countP fun b => rm b && decide (role b = .numbered)) = off a) :
    Windowed role off' k (l.filter fun a => !rm a) := by
  induction l generalizing k g with
  | nil => trivial
  | cons a l ih =>
    have hl : ∀ {g' : Nat}, (g' = if rm a && decide (role a = .numbered) then g + 1 else g) →
        ∀ l₁ b l₂, l = l₁ ++ b :: l₂ → rm b = false →
        off' b + g' + (l₁.countP fun b => rm b && decide (role b = .numbered)) = off b := by
      intro g' hg' l₁ b l₂ hlb hb
      have := hoff (a :: l₁) b l₂ (by rw [hlb]; rfl) hb
      rw [List.countP_cons] at this
      split at hg'
      · rename_i h
        rw [if_pos h] at this
        omega
      · rename_i h
        rw [if_neg h] at this
        omega
    cases hrm : rm a with
    | true =>
      rw [List.filter_cons_of_neg (by simp [hrm])]
      cases hr : role a with
      | numbered =>
        rw [cons_numbered hr] at h
        exact ih (g := g + 1) h.2 (hl (by simp [hrm, hr]))
      | leading =>
        rw [cons_leading hr] at h
        exact ih h.2.2 (hl (by simp [hr]))
      | trailing =>
        rw [cons_trailing hr] at h
        exact ih h.2 (hl (by simp [hr]))
    | false =>
      have ha : off' a + g = off a := by simpa using hoff [] a l rfl hrm
      rw [List.filter_cons_of_pos (by simp [hrm])]
      cases hr : role a with
      | numbered =>
        rw [cons_numbered hr] at h ⊢
        refine ⟨by omega, ih (g := g) ?_ (hl (by simp [hrm]))⟩
        rw [show k + 1 + g = k + g + 1 by omega]
        exact h.2
      | leading =>
        rw [cons_leading hr] at h ⊢
        exact ⟨by omega, by omega, ih h.2.2 (hl (by simp [hrm]))⟩
      | trailing =>
        rw [cons_trailing hr] at h ⊢
        exact ⟨by omega, ih h.2 (hl (by simp [hrm]))⟩

end Windowed

/-! ## Sorted insertion -/

/-- An element is inserted before the first element that satisfies `p`, else at the end. -/
def insertBy (p : α → Bool) (x : α) : List α → List α
  | [] => [x]
  | a :: l => if p a then x :: a :: l else a :: insertBy p x l

theorem perm_insertBy (p : α → Bool) (x : α) (l : List α) : (insertBy p x l).Perm (x :: l) := by
  induction l with
  | nil => exact .refl _
  | cons a l ih =>
    rw [insertBy]
    split
    · exact .refl _
    · exact (ih.cons a).trans (.swap x a l)

theorem count_insertBy (p : α → Bool) (x : α) (l : List α) :
    count role (insertBy p x l) = count role (x :: l) :=
  (perm_insertBy p x l).countP_eq _

/-- An insertion splits the list. -/
theorem insertBy_eq (p : α → Bool) (x : α) (l : List α) :
    ∃ l₁ l₂, l = l₁ ++ l₂ ∧ insertBy p x l = l₁ ++ x :: l₂ := by
  induction l with
  | nil => exact ⟨[], [], rfl, rfl⟩
  | cons a l ih =>
    rw [insertBy]
    split
    · exact ⟨[], a :: l, rfl, rfl⟩
    · obtain ⟨l₁, l₂, hl, h⟩ := ih
      exact ⟨a :: l₁, l₂, by rw [hl]; rfl, by rw [h]; rfl⟩

namespace Windowed

variable {k : Nat} {x : α} {l : List α} {p : α → Bool}

/-- The next number goes to the end of the queue. -/
theorem insert_numbered (h : Windowed role off k l) (hx : role x = .numbered)
    (hoff : off x = k + count role l + 1) (hp : ∀ a ∈ l, p a ↔ off x < off a) :
    Windowed role off k (insertBy p x l) := by
  induction l generalizing k with
  | nil =>
    rw [insertBy, cons_numbered hx]
    exact ⟨by simpa using hoff, trivial⟩
  | cons a l ih =>
    have hpl := fun b hb => hp b (List.mem_cons_of_mem _ hb)
    have hna : ¬p a := by
      have := h.off_le (a := a) (by simp)
      rw [hp a (by simp)]
      omega
    rw [insertBy, if_neg hna]
    cases hr : role a with
    | numbered =>
      rw [cons_numbered hr] at h ⊢
      rw [count_cons_numbered hr] at hoff
      exact ⟨h.1, ih h.2 (by omega) hpl⟩
    | leading =>
      rw [cons_leading hr] at h ⊢
      rw [count_cons_of_ne (by simp [hr])] at hoff
      exact ⟨h.1, h.2.1, ih h.2.2 hoff hpl⟩
    | trailing =>
      rw [cons_trailing hr] at h ⊢
      rw [count_cons_of_ne (by simp [hr])] at hoff
      exact ⟨h.1, ih h.2 hoff hpl⟩

/-- A trailing element of the last number goes behind all numbered elements. -/
theorem insert_trailing (h : Windowed role off k l) (hx : role x = .trailing)
    (hoff : off x = k + count role l) (hp : ∀ a ∈ l, p a ↔ off x < off a) :
    Windowed role off k (insertBy p x l) := by
  induction l generalizing k with
  | nil =>
    rw [insertBy, cons_trailing hx]
    exact ⟨by simpa using hoff, trivial⟩
  | cons a l ih =>
    have hpa := hp a (by simp)
    have hpl := fun b hb => hp b (List.mem_cons_of_mem _ hb)
    rw [insertBy]
    cases hr : role a with
    | numbered =>
      have h' := (cons_numbered hr).1 h
      rw [count_cons_numbered hr] at hoff
      have hna : ¬p a := by rw [hpa]; omega
      rw [if_neg hna, cons_numbered hr]
      exact ⟨h'.1, ih h'.2 (by omega) hpl⟩
    | leading =>
      have h' := (cons_leading hr).1 h
      rw [count_cons_of_ne (by simp [hr])] at hoff
      by_cases hpa' : p a
      · rw [if_pos hpa', cons_trailing hx]
        have := hpa.1 hpa'
        exact ⟨by omega, h⟩
      · rw [if_neg hpa', cons_leading hr]
        exact ⟨h'.1, h'.2.1, ih h'.2.2 hoff hpl⟩
    | trailing =>
      have h' := (cons_trailing hr).1 h
      rw [count_cons_of_ne (by simp [hr])] at hoff
      have hna : ¬p a := by rw [hpa]; omega
      rw [if_neg hna, cons_trailing hr]
      exact ⟨h'.1, ih h'.2 hoff hpl⟩

/-- A leading element goes behind the leading elements at the head of the queue. -/
theorem insert_leading (h : Windowed role off 0 l) (hx : role x = .leading) (hoff : off x = 1)
    (hp : ∀ a ∈ l, p a ↔ off x < off a ∨ role a ≠ .leading) :
    Windowed role off 0 (insertBy p x l) := by
  induction l with
  | nil =>
    rw [insertBy, cons_leading hx]
    exact ⟨rfl, hoff, trivial⟩
  | cons a l ih =>
    have hpa := hp a (by simp)
    have hpl := fun b hb => hp b (List.mem_cons_of_mem _ hb)
    rw [insertBy]
    by_cases hpa' : p a
    · rw [if_pos hpa', cons_leading hx]
      exact ⟨rfl, hoff, h⟩
    · rw [hpa, not_or, not_not] at hpa'
      have h' := (cons_leading hpa'.2).1 h
      rw [if_neg (by rw [hpa]; simp [hpa'.2]; omega), cons_leading hpa'.2]
      exact ⟨rfl, h'.2.1, ih h'.2.2 hpl⟩

end Windowed

end Numbering
