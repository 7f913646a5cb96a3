import Mathlib

/-!
# Singly linked lists

Cells that each name the next one. `Path next h l t` says that `l` are the cells from `h` on until
`t` is reached; a list is a path to its end. A list is read off its head (`Path.unique`), has no
cell twice (`Path.nodup`), and a change of one link is a change of the list (`Path.insert`,
`Path.remove`). `walk` is the loop that looks for a place.
-/

namespace LinkedList

variable {α : Type*} {next next' : α → Option α} {h t u : Option α} {l l' : List α} {a b : α}

/-- The cells from `h` on until `t`. -/
def Path (next : α → Option α) : Option α → List α → Option α → Prop
  | h, [], t => h = t
  | h, a :: l, t => h = some a ∧ Path next (next a) l t

/-- The cells of the list that begins with `h`. -/
abbrev Linked (next : α → Option α) (h : Option α) (l : List α) : Prop := Path next h l none

theorem path_append : Path next h (l ++ l') t ↔ ∃ u, Path next h l u ∧ Path next u l' t := by
  induction l generalizing h with
  | nil =>
    constructor
    · intro h'
      exact ⟨h, rfl, h'⟩
    · rintro ⟨_, rfl, h'⟩
      exact h'
  | cons a l ih =>
    rw [List.cons_append, Path, ih]
    constructor
    · rintro ⟨rfl, u, hl, hl'⟩
      exact ⟨u, ⟨rfl, hl⟩, hl'⟩
    · rintro ⟨u, ⟨rfl, hl⟩, hl'⟩
      exact ⟨rfl, u, hl, hl'⟩

/-- A path depends on the links of its cells. -/
theorem Path.congr (h' : Path next h l t) (heq : ∀ a ∈ l, next' a = next a) :
    Path next' h l t := by
  induction l generalizing h with
  | nil => exact h'
  | cons a l ih =>
    obtain ⟨rfl, hrest⟩ := h'
    refine ⟨rfl, ih ?_ fun b hb => heq b (List.mem_cons_of_mem a hb)⟩
    rw [heq a List.mem_cons_self]
    exact hrest

/-- The head determines the list. -/
theorem Path.unique (h₁ : Linked next h l) (h₂ : Linked next h l') : l = l' := by
  induction l generalizing h l' with
  | nil =>
    obtain rfl : h = none := h₁
    cases l' with
    | nil => rfl
    | cons b l' => cases h₂.1
  | cons a l ih =>
    obtain ⟨rfl, hrest⟩ := h₁
    cases l' with
    | nil => cases (h₂ : some a = none)
    | cons b l' =>
      obtain ⟨heq, hrest'⟩ := h₂
      obtain rfl := Option.some.inj heq
      rw [ih hrest hrest']

/-- No cell is in a list twice: what follows it would be longer than itself. -/
theorem Path.nodup (h' : Linked next h l) : l.Nodup := by
  induction l generalizing h with
  | nil => exact List.nodup_nil
  | cons a l ih =>
    have hcons := h'
    obtain ⟨rfl, hrest⟩ := h'
    refine List.nodup_cons.2 ⟨fun hmem => ?_, ih hrest⟩
    obtain ⟨l₁, l₂, rfl⟩ := List.append_of_mem hmem
    obtain ⟨u, -, hu⟩ := path_append.1 hrest
    have htail : Linked next (some a) (a :: l₂) := by
      obtain ⟨rfl, hl₂⟩ := hu
      exact ⟨rfl, hl₂⟩
    have hlength := congrArg List.length (hcons.unique htail)
    simp only [List.length_cons, List.length_append] at hlength
    omega

section
variable [DecidableEq α]

/-- A path past a cell that is not on it. -/
theorem Path.update (h' : Path next h l t) (ha : a ∉ l) (v : Option α) :
    Path (Function.update next a v) h l t :=
  h'.congr fun _ hb => Function.update_of_ne (ne_of_mem_of_not_mem hb ha) _ _

/-- **A cell is linked in** behind the cell `b`. -/
theorem Path.insert (h' : Linked next h (l ++ b :: l')) (ha : a ∉ l ++ b :: l') :
    Linked (Function.update (Function.update next b (some a)) a (next b)) h
      (l ++ b :: a :: l') := by
  have hnodup := h'.nodup
  obtain ⟨u, hl, rfl, hl'⟩ := path_append.1 h'
  have hab : a ≠ b := fun heq => ha (heq ▸ List.mem_append_right _ List.mem_cons_self)
  have hal : a ∉ l := fun hm => ha (List.mem_append_left _ hm)
  have hal' : a ∉ l' := fun hm => ha (List.mem_append_right _ (List.mem_cons_of_mem _ hm))
  obtain ⟨-, hbl', hdisjoint⟩ := List.nodup_append.1 hnodup
  have hbl : b ∉ l := fun hm => hdisjoint b hm b List.mem_cons_self rfl
  refine path_append.2 ⟨some b, (hl.update hbl _).update hal _, rfl, ?_⟩
  rw [Function.update_of_ne hab.symm, Function.update_self]
  refine ⟨rfl, ?_⟩
  rw [Function.update_self]
  exact (hl'.update (List.nodup_cons.1 hbl').1 _).update hal' _

/-- **A cell is linked in** as the first. -/
theorem Path.cons (h' : Linked next h l) (ha : a ∉ l) :
    Linked (Function.update next a h) (some a) (a :: l) := by
  refine ⟨rfl, ?_⟩
  rw [Function.update_self]
  exact h'.update ha _

/-- **A cell is taken out** behind the cell `b`. -/
theorem Path.remove (h' : Linked next h (l ++ b :: a :: l')) :
    Linked (Function.update next b (next a)) h (l ++ b :: l') := by
  have hnodup := h'.nodup
  obtain ⟨u, hl, rfl, hnext, hl'⟩ := path_append.1 h'
  obtain ⟨-, hbl', hdisjoint⟩ := List.nodup_append.1 hnodup
  have hbl : b ∉ l := fun hm => hdisjoint b hm b List.mem_cons_self rfl
  refine path_append.2 ⟨some b, hl.update hbl _, rfl, ?_⟩
  rw [Function.update_self]
  exact hl'.update (fun hm => (List.nodup_cons.1 hbl').1 (List.mem_cons_of_mem _ hm)) _

end

/-! ## Looking for a place -/

/-- The first cell from `a` on at which the loop stops, or the last one. The number bounds the
turns. -/
def walk (next : α → Option α) (stop : α → Bool) : ℕ → α → Option α
  | 0, _ => none
  | fuel + 1, a =>
    match next a with
    | none => some a
    | some b => if stop a then some a else walk next stop fuel b

/-- **The loop finds the first cell at which it is to stop, or the last cell.** -/
theorem walk_spec (stop : α → Bool) (h' : Linked next (some a) l) {fuel : ℕ}
    (hfuel : l.length ≤ fuel) : ∃ l₁ b l₂, l = l₁ ++ b :: l₂ ∧
      (∀ c ∈ l₁, stop c = false) ∧ (l₂ = [] ∨ stop b = true) ∧
      walk next stop fuel a = some b := by
  induction fuel generalizing l a with
  | zero =>
    obtain rfl := List.length_eq_zero_iff.1 (Nat.le_zero.1 hfuel)
    cases (h' : some a = none)
  | succ fuel ih =>
    cases l with
    | nil => cases (h' : some a = none)
    | cons b l =>
      obtain ⟨heq, hrest⟩ := h'
      obtain rfl := Option.some.inj heq
      unfold walk
      cases hnext : next a with
      | none =>
        rw [hnext] at hrest
        have hnil : Linked next none [] := rfl
        obtain rfl := hrest.unique hnil
        exact ⟨[], a, [], rfl, List.forall_mem_nil _, .inl rfl, rfl⟩
      | some c =>
        rw [hnext] at hrest
        cases hstop : stop a with
        | true => exact ⟨[], a, l, rfl, List.forall_mem_nil _, .inr hstop, rfl⟩
        | false =>
          obtain ⟨l₁, d, l₂, rfl, hbefore, hend, hwalk⟩ :=
            ih hrest (Nat.le_of_succ_le_succ hfuel)
          exact ⟨a :: l₁, d, l₂, rfl, List.forall_mem_cons.2 ⟨hstop, hbefore⟩, hend, hwalk⟩

/-- The next cell of a path. -/
theorem Path.head_eq (h' : Path next h l none) : h = l.head? := by
  cases l with
  | nil => exact h'
  | cons a l => exact h'.1

/-- A cell that neither begins a list nor is next to one of its cells but the last is not in it. -/
theorem Path.notMem {c : α} (h' : Linked next (some a) (l ++ [b])) (ha : a ≠ c)
    (hnext : ∀ d ∈ l, next d ≠ some c) : c ∉ l ++ [b] := by
  induction l generalizing a with
  | nil =>
    obtain rfl := Option.some.inj h'.1
    exact fun hmem => ha (List.mem_singleton.1 hmem).symm
  | cons d l ih =>
    obtain ⟨heq, hrest⟩ := h'
    obtain rfl := Option.some.inj heq
    obtain ⟨hd, hl⟩ := List.forall_mem_cons.1 hnext
    have hne : next a ≠ none := by
      rw [hrest.head_eq]
      simp
    obtain ⟨e, he⟩ := Option.ne_none_iff_exists'.1 hne
    rw [he] at hrest hd
    intro hmem
    rcases List.mem_cons.1 hmem with rfl | hmem
    · exact ha rfl
    · exact ih hrest (fun heq => hd (congrArg some heq)) hl hmem

/-- The first cell from `current` on at which the loop stops, with the one before it. -/
def place (next : α → Option α) (stop : α → Bool) : ℕ → Option α → α → Option (Option α × Option α)
  | 0, _, _ => none
  | fuel + 1, last, current =>
    if stop current then some (last, some current)
    else
      match next current with
      | none => some (some current, none)
      | some b => place next stop fuel (some current) b

/-- **The loop finds where a list is to be divided**: before the first cell at which it is to stop,
or at the end. -/
theorem place_spec (stop : α → Bool) (h' : Linked next (some a) l) {fuel : ℕ}
    (hfuel : l.length ≤ fuel) {before : List α} : ∃ l₁ l₂, l = l₁ ++ l₂ ∧
      (∀ c ∈ l₁, stop c = false) ∧ (∀ c ∈ l₂.head?, stop c = true) ∧
      place next stop fuel before.getLast? a = some ((before ++ l₁).getLast?, l₂.head?) := by
  induction fuel generalizing l a before with
  | zero =>
    obtain rfl := List.length_eq_zero_iff.1 (Nat.le_zero.1 hfuel)
    cases (h' : some a = none)
  | succ fuel ih =>
    cases l with
    | nil => cases (h' : some a = none)
    | cons b l =>
      obtain ⟨heq, hrest⟩ := h'
      obtain rfl := Option.some.inj heq
      unfold place
      cases hstop : stop a with
      | true =>
        refine ⟨[], a :: l, rfl, List.forall_mem_nil _, ?_, ?_⟩
        · rintro c ⟨⟩
          exact hstop
        · rw [if_pos rfl, List.append_nil]
          rfl
      | false =>
        rw [if_neg Bool.false_ne_true]
        cases hnext : next a with
        | none =>
          rw [hnext] at hrest
          have hnil : Linked next none [] := rfl
          obtain rfl := hrest.unique hnil
          refine ⟨[a], [], rfl, List.forall_mem_singleton.2 hstop, fun c hc => (by cases hc), ?_⟩
          rw [List.getLast?_concat]
          rfl
        | some c =>
          rw [hnext] at hrest
          obtain ⟨l₁, l₂, rfl, hbefore, hat, hplace⟩ :=
            @ih l c hrest (Nat.le_of_succ_le_succ hfuel) (before ++ [a])
          refine ⟨a :: l₁, l₂, rfl, List.forall_mem_cons.2 ⟨hstop, hbefore⟩, hat, ?_⟩
          rw [List.getLast?_concat, List.append_assoc] at hplace
          exact hplace

end LinkedList
