import Libiscsi.Lib.Outcome

/-!
# Runs of a transition system

A transition system is a step relation on states, whose steps are labelled by actions. `Run` are
the runs of a set of steps, `GoodRun` those in which every action meets a condition in the state
in which it is taken. An invariant that holds in the first state and that every (good) step keeps
holds in every state a (good) run reaches.
-/

variable {α σ : Type*}

/-- The states a run of the labelled steps reaches from a state. -/
abbrev Run (Step : α → σ → σ → Prop) : σ → σ → Prop :=
  Relation.ReflTransGen fun s s' => ∃ a, Step a s s'

/-- The states reached by a run each of whose actions meets the condition `Good` in the state in
which it is taken. -/
abbrev GoodRun (Step : α → σ → σ → Prop) (Good : α → σ → Prop) : σ → σ → Prop :=
  Run fun a s s' => Step a s s' ∧ Good a s

/-- A run with its actions and the states they lead to. -/
inductive Trail (Step : α → σ → σ → Prop) : σ → List (α × σ) → Prop where
  | nil {s : σ} : Trail Step s []
  | cons {s s' : σ} {a : α} {l : List (α × σ)} (h : Step a s s') (hl : Trail Step s' l) :
      Trail Step s ((a, s') :: l)

/-- Every action of the trail meets the condition in the state in which it is taken. -/
def Trail.AllGood (Good : α → σ → Prop) : σ → List (α × σ) → Prop
  | _, [] => True
  | s, (a, s') :: l => Good a s ∧ AllGood Good s' l

/-- **A property holds in every state of a trail exactly when every action is good**, if a step
from a state with the property leads to one with it exactly when its action is good. -/
theorem Trail.forall_iff {Step : α → σ → σ → Prop} {Inv P : σ → Prop} {Good : α → σ → Prop}
    (hinv : ∀ a s s', Inv s → Step a s s' → Inv s')
    (hgood : ∀ a s s', Inv s → P s → Step a s s' → (P s' ↔ Good a s)) {s : σ} {l : List (α × σ)}
    (h : Trail Step s l) (hi : Inv s) (hp : P s) : (∀ x ∈ l, P x.2) ↔ AllGood Good s l := by
  induction h with
  | nil => simp [AllGood]
  | @cons s s' a l hstep hl ih =>
    rw [List.forall_mem_cons, AllGood]
    constructor
    · rintro ⟨hp', hrest⟩
      exact ⟨(hgood a s s' hi hp hstep).1 hp', (ih (hinv a s s' hi hstep) hp').1 hrest⟩
    · rintro ⟨hg, hrest⟩
      have hp' := (hgood a s s' hi hp hstep).2 hg
      exact ⟨hp', (ih (hinv a s s' hi hstep) hp').2 hrest⟩

namespace Run

variable {Step : α → σ → σ → Prop} {Inv : σ → Prop} {s s' : σ}

/-- **Invariant rule.** What holds at the start and is kept by every step holds along the run. -/
theorem invariant (hr : Run Step s s') (h0 : Inv s)
    (hstep : ∀ a t t', Inv t → Step a t t' → Inv t') : Inv s' := by
  induction hr with
  | refl => exact h0
  | tail _ hs ih =>
    obtain ⟨a, hs⟩ := hs
    exact hstep a _ _ ih hs

/-- A step is a run. -/
theorem single {a : α} (h : Step a s s') : Run Step s s' :=
  Relation.ReflTransGen.single ⟨a, h⟩

end Run
