import Libiscsi.Lib.Numbering
import Libiscsi.Lib.Run

/-!
# The order in which elements leave a queue

A queue is kept by sorted insertion of elements of three roles (`Numbering.Role`), and left at its
head. The order of departure is the list of the elements that have left, followed by the queue.
`Departs` says what holds of it whatever is inserted: the numbered elements are in ascending order,
a trailing element stands before numbered elements with greater numbers only, and a leading element
of the queue before numbered elements whose numbers are not smaller.
-/

namespace Numbering

variable {α : Type*} {role role' : α → Role} {off off' : α → Nat} {left queue l₁ l₂ : List α}
  {x : α} {p : α → Bool}

/-! ## Insertion into a list -/

/-- An element is inserted behind elements at which the insertion does not stop, and before one at
which it does. -/
theorem insertBy_split (p : α → Bool) (x : α) (l : List α) :
    ∃ l₁ l₂, l = l₁ ++ l₂ ∧ insertBy p x l = l₁ ++ x :: l₂ ∧ (∀ a ∈ l₁, p a = false) ∧
      ∀ a l₃, l₂ = a :: l₃ → p a = true := by
  induction l with
  | nil => exact ⟨[], [], rfl, rfl, by simp, by simp⟩
  | cons a l ih =>
    rw [insertBy]
    cases hp : p a with
    | true =>
      refine ⟨[], a :: l, rfl, by simp, by simp, fun b l₃ h => ?_⟩
      obtain ⟨rfl, _⟩ := List.cons.inj h
      exact hp
    | false =>
      obtain ⟨l₁, l₂, hl, h, hbefore, hat⟩ := ih
      refine ⟨a :: l₁, l₂, by rw [hl]; rfl, by rw [h]; simp, ?_, hat⟩
      exact List.forall_mem_cons.2 ⟨hp, hbefore⟩

/-- A relation on a list in order, with one element more. -/
theorem pairwise_insert {R : α → α → Prop} (h : (l₁ ++ l₂).Pairwise R) (hb : ∀ a ∈ l₁, R a x)
    (ha : ∀ a ∈ l₂, R x a) : (l₁ ++ x :: l₂).Pairwise R := by
  obtain ⟨h₁, h₂, h₁₂⟩ := List.pairwise_append.1 h
  refine List.pairwise_append.2 ⟨h₁, List.pairwise_cons.2 ⟨ha, h₂⟩, fun a hm b hm' => ?_⟩
  rcases List.mem_cons.1 hm' with rfl | hm'
  · exact hb a hm
  · exact h₁₂ a hm b hm'

/-! ## The order of departure -/

/-- The numbers in the order of departure. -/
structure Departs (role : α → Role) (off : α → Nat) (left queue : List α) : Prop where
  numbered : (left ++ queue).Pairwise fun a b =>
    role b = .numbered → role a ≠ .leading → off a < off b
  leading : queue.Pairwise fun a b => role a = .leading → role b = .numbered → off a ≤ off b

namespace Departs

/-- The roles and the numbers of the elements are all that counts. -/
theorem congr (h : Departs role off left queue) (hrole : ∀ a ∈ left ++ queue, role' a = role a)
    (hoff : ∀ a ∈ left ++ queue, off' a = off a) : Departs role' off' left queue where
  numbered := h.numbered.imp_of_mem fun {a b} ha hb h => by
    rw [hrole a ha, hrole b hb, hoff a ha, hoff b hb]
    exact h
  leading := h.leading.imp_of_mem fun {a b} ha hb h => by
    have ha := List.mem_append_right left ha
    have hb := List.mem_append_right left hb
    rw [hrole a ha, hrole b hb, hoff a ha, hoff b hb]
    exact h

/-- The head of the queue leaves. -/
theorem leave (h : Departs role off left (x :: queue)) : Departs role off (left ++ [x]) queue where
  numbered := by
    have := h.numbered
    rwa [List.append_cons] at this
  leading := (List.pairwise_cons.1 h.leading).2

/-- The insertion stops at greater numbers, and that of a leading element also at elements that
are not leading. -/
def StopsAt (role : α → Role) (off : α → Nat) (x : α) (p : α → Bool) (queue : List α) : Prop :=
  ∀ b ∈ queue, p b = true ↔ off x < off b ∨ role x = .leading ∧ role b ≠ .leading

/-- The numbered elements behind an element that is not leading have greater numbers. -/
theorem lt_of_behind (h : Departs role off left (l₁ ++ l₂)) (hp : StopsAt role off x p (l₁ ++ l₂))
    (hx : role x ≠ .leading) (hat : ∀ a l₃, l₂ = a :: l₃ → p a = true) {b : α} (hb : b ∈ l₂)
    (hrole : role b = .numbered) : off x < off b := by
  cases l₂ with
  | nil => cases hb
  | cons g l₃ =>
    have hg : off x < off g :=
      ((hp g (by simp)).1 (hat g l₃ rfl)).resolve_right fun h => hx h.1
    rcases List.mem_cons.1 hb with rfl | hb
    · exact hg
    · have hnum := (List.pairwise_append.1 (List.pairwise_append.1 h.numbered).2.1).2.1
      have hlead := (List.pairwise_append.1 h.leading).2.1
      cases hrg : role g with
      | leading =>
        have := (List.pairwise_cons.1 hlead).1 b hb hrg hrole
        omega
      | numbered | trailing =>
        have := (List.pairwise_cons.1 hnum).1 b hb hrole (by simp [hrg])
        omega

/-- Inserting a numbered element whose number is greater than all there have been. -/
theorem insert_numbered (h : Departs role off left queue) (hp : StopsAt role off x p queue)
    (hx : role x = .numbered) (hmax : ∀ a ∈ left ++ queue, role a ≠ .leading → off a < off x) :
    Departs role off left (insertBy p x queue) := by
  obtain ⟨l₁, l₂, rfl, hins, hbefore, hat⟩ := insertBy_split p x queue
  have hbehind : ∀ b ∈ l₂, role b ≠ .numbered := fun b hb hrole => by
    have hlt := lt_of_behind h hp (by simp [hx]) hat hb hrole
    have := hmax b (by simp [hb]) (by simp [hrole])
    omega
  rw [hins]
  refine ⟨?_, pairwise_insert h.leading (fun a ha _ _ => ?_) fun b hb hlead => ?_⟩
  · rw [← List.append_assoc]
    refine pairwise_insert (by rw [List.append_assoc]; exact h.numbered) (fun a ha _ hr => ?_)
      fun b hb hrole => absurd hrole (hbehind b hb)
    exact hmax a (by rw [← List.append_assoc]; exact List.mem_append_left _ ha) hr
  · have hnot := (hp a (List.mem_append_left _ ha)).not.1 (by simp [hbefore a ha])
    exact Nat.le_of_not_lt fun hlt => hnot (.inl hlt)
  · rw [hx] at hlead
    cases hlead

/-- Inserting a trailing element. -/
theorem insert_trailing (h : Departs role off left queue) (hp : StopsAt role off x p queue)
    (hx : role x = .trailing) : Departs role off left (insertBy p x queue) := by
  obtain ⟨l₁, l₂, rfl, hins, _, hat⟩ := insertBy_split p x queue
  rw [hins]
  refine ⟨?_, pairwise_insert h.leading (fun a _ _ hr => ?_) fun b _ hlead => ?_⟩
  · rw [← List.append_assoc]
    refine pairwise_insert (by rw [List.append_assoc]; exact h.numbered) (fun a _ hr => ?_)
      fun b hb hrole _ => lt_of_behind h hp (by simp [hx]) hat hb hrole
    rw [hx] at hr
    cases hr
  · rw [hx] at hr
    cases hr
  · rw [hx] at hlead
    cases hlead

/-- Inserting a leading element whose number is not greater than those of the numbered elements of
the queue. -/
theorem insert_leading (h : Departs role off left queue) (hx : role x = .leading)
    (hle : ∀ b ∈ queue, role b = .numbered → off x ≤ off b) :
    Departs role off left (insertBy p x queue) := by
  obtain ⟨l₁, l₂, rfl, hins, _, _⟩ := insertBy_split p x queue
  rw [hins]
  refine ⟨?_, pairwise_insert h.leading (fun a _ _ hr => ?_) fun b hb _ hr =>
    hle b (by simp [hb]) hr⟩
  · rw [← List.append_assoc]
    refine pairwise_insert (by rw [List.append_assoc]; exact h.numbered) (fun a _ hr => ?_)
      fun b _ _ hr => absurd hx hr
    rw [hx] at hr
    cases hr
  · rw [hx] at hr
    cases hr

/-- A leading element that is inserted stands before all elements that are not leading. -/
theorem leading_before (hp : StopsAt role off x p queue) (hx : role x = .leading) {b : α}
    (hb : b ∈ queue) (hrole : role b ≠ .leading) : [x, b].Sublist (insertBy p x queue) := by
  obtain ⟨l₁, l₂, rfl, hins, hbefore, _⟩ := insertBy_split p x queue
  rw [hins]
  have hb₂ : b ∈ l₂ := by
    refine (List.mem_append.1 hb).resolve_left fun hb₁ => ?_
    have := (hp b hb).2 (.inr ⟨hx, hrole⟩)
    rw [hbefore b hb₁] at this
    cases this
  exact ((List.singleton_sublist.2 hb₂).cons_cons x).trans (List.sublist_append_right ..)

end Departs

/-! ## First in, first out -/

/-- Elements with equal keys leave in the order in which they were added. -/
def Fifo {κ : Type*} (key : α → κ) (added order : List α) : Prop :=
  order.Pairwise fun a b => key a = key b → [a, b].Sublist added

/-- An element that is added keeps the order exactly if no element with its key stands behind one
at which the insertion stops. -/
theorem fifo_insertBy_iff {κ : Type*} {key : α → κ} {added : List α}
    (h : Fifo key added (left ++ queue)) (hmem : ∀ a ∈ left ++ queue, a ∈ added)
    (hx : x ∉ added) (hself : ∀ b ∈ queue, p b = true → key b ≠ key x) :
    Fifo key (added ++ [x]) (left ++ insertBy p x queue) ↔
      queue.Pairwise fun b c => p b = true → key c ≠ key x := by
  obtain ⟨l₁, l₂, rfl, hins, hbefore, hat⟩ := insertBy_split p x queue
  rw [hins]
  constructor
  · intro hf
    have hbehind : ∀ c ∈ l₂, key c ≠ key x := fun c hc hk => by
      have hxc : [x, c].Sublist (added ++ [x]) :=
        (List.pairwise_cons.1 (List.pairwise_append.1 (List.pairwise_append.1 hf).2.1).2.1).1 c hc
          hk.symm
      -- nothing was added after `x`
      obtain ⟨m₁, m₂, heq, h₁, h₂⟩ := List.sublist_append_iff.1 hxc
      cases m₁ with
      | nil =>
        rw [List.nil_append] at heq
        subst heq
        have := h₂.length_le
        simp at this
      | cons y m₁ =>
        obtain ⟨rfl, _⟩ := List.cons.inj heq
        exact hx (h₁.subset List.mem_cons_self)
    refine List.pairwise_append.2 ⟨?_, ?_, fun a ha b hb hp => ?_⟩
    · exact List.pairwise_iff_forall_sublist.2 fun {a b} hab hp => by
        simp [hbefore a (hab.subset (by simp))] at hp
    · exact List.pairwise_iff_forall_sublist.2 fun {a b} hab _ => hbehind b (hab.subset (by simp))
    · simp [hbefore a ha] at hp
  · intro hsafe
    have hbehind : ∀ c ∈ l₂, key c ≠ key x := by
      cases l₂ with
      | nil => simp
      | cons g l₃ =>
        have hg := hat g l₃ rfl
        have hrest := (List.pairwise_cons.1 (List.pairwise_append.1 hsafe).2.1).1
        exact List.forall_mem_cons.2 ⟨hself g (by simp) hg, fun c hc => hrest c hc hg⟩
    have hold : (left ++ (l₁ ++ l₂)).Pairwise fun a b =>
        key a = key b → [a, b].Sublist (added ++ [x]) :=
      h.imp fun h hk => (h hk).trans (List.sublist_append_left ..)
    unfold Fifo
    rw [← List.append_assoc] at hold ⊢
    refine pairwise_insert hold (fun a ha _ => ?_) fun c hc hk => absurd hk.symm (hbehind c hc)
    have ha : a ∈ added := hmem a (by
      rw [← List.append_assoc]
      exact List.mem_append_left _ ha)
    exact (List.singleton_sublist.2 ha).append (List.Sublist.refl [x])

end Numbering
