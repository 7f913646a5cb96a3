import Mathlib

/-!
# Frames one after the other

A stream of frames is the sequence of their encodings. Where no encoding is the beginning of
another one the stream determines its frames (`frames_unique`), however much of the next one has
arrived.
-/

namespace Framing

variable {φ α : Type*} {Good : φ → Prop} {wire : φ → List α}

/-- The encoding of a frame is not the beginning of the encoding of another one. -/
def PrefixFree (Good : φ → Prop) (wire : φ → List α) : Prop :=
  ∀ f g, Good f → Good g → wire f <+: wire g → f = g

/-- A part of a frame that is still to be completed. -/
def Pending (Good : φ → Prop) (wire : φ → List α) (l : List α) : Prop :=
  ∃ f, Good f ∧ l <+: wire f ∧ l ≠ wire f

/-- Nothing after a part of a frame is a whole frame. -/
theorem Pending.not_prefix (hfree : PrefixFree Good wire) {l : List α} (hl : Pending Good wire l)
    {g : φ} (hg : Good g) : ¬wire g <+: l := by
  obtain ⟨f, hf, hprefix, hne⟩ := hl
  intro h
  obtain rfl := hfree g f hg hf (h.trans hprefix)
  exact hne (List.IsPrefix.eq_of_length_le hprefix h.length_le)

/-- Of two frames that begin a stream one begins with the other. -/
theorem PrefixFree.eq_of_append (hfree : PrefixFree Good wire) {f g : φ} (hf : Good f)
    (hg : Good g) {l l' : List α} (h : wire f ++ l = wire g ++ l') : f = g := by
  have hprefix : wire f <+: wire g ++ l' := ⟨l, h⟩
  rcases List.prefix_or_prefix_of_prefix hprefix (List.prefix_append (wire g) l') with h | h
  · exact hfree f g hf hg h
  · exact (hfree g f hg hf h).symm

/-- **A stream has its frames in one way.** -/
theorem frames_unique (hfree : PrefixFree Good wire) {fs gs : List φ} {l l' : List α}
    (hfs : ∀ f ∈ fs, Good f) (hgs : ∀ g ∈ gs, Good g) (hl : Pending Good wire l)
    (hl' : Pending Good wire l') (h : fs.flatMap wire ++ l = gs.flatMap wire ++ l') :
    fs = gs ∧ l = l' := by
  induction fs generalizing gs with
  | nil =>
    cases gs with
    | nil => exact ⟨rfl, h⟩
    | cons g gs =>
      rw [List.flatMap_nil, List.nil_append, List.flatMap_cons, List.append_assoc] at h
      exact absurd ⟨_, h.symm⟩ (hl.not_prefix hfree (hgs g List.mem_cons_self))
  | cons f fs ih =>
    have hf := hfs f List.mem_cons_self
    cases gs with
    | nil =>
      rw [List.flatMap_nil, List.nil_append, List.flatMap_cons, List.append_assoc] at h
      exact absurd ⟨_, h⟩ (hl'.not_prefix hfree hf)
    | cons g gs =>
      rw [List.flatMap_cons, List.flatMap_cons, List.append_assoc, List.append_assoc] at h
      obtain rfl := hfree.eq_of_append hf (hgs g List.mem_cons_self) h
      obtain ⟨rfl, hrest⟩ := ih (fun f hf => hfs f (List.mem_cons_of_mem _ hf))
        (fun g hg => hgs g (List.mem_cons_of_mem _ hg)) (List.append_cancel_left h)
      exact ⟨rfl, hrest⟩

/-- **Frames that begin a stream are the first of its frames**, and those after the last of these
begin what follows. -/
theorem frames_prefix (hfree : PrefixFree Good wire) {fs gs : List φ} {tail : List α}
    (hfs : ∀ f ∈ fs, Good f) (hgs : ∀ g ∈ gs, Good g)
    (h : fs.flatMap wire <+: gs.flatMap wire ++ tail) :
    fs <+: gs ∨ ∃ f rest, fs = gs ++ f :: rest ∧ (f :: rest).flatMap wire <+: tail := by
  induction fs generalizing gs with
  | nil => exact .inl List.nil_prefix
  | cons f fs ih =>
    cases gs with
    | nil => exact .inr ⟨f, fs, rfl, h⟩
    | cons g gs =>
      obtain ⟨l, hl⟩ := h
      rw [List.flatMap_cons, List.flatMap_cons, List.append_assoc, List.append_assoc] at hl
      obtain rfl := hfree.eq_of_append (hfs f List.mem_cons_self) (hgs g List.mem_cons_self) hl
      rcases ih (fun f hf => hfs f (List.mem_cons_of_mem _ hf))
        (fun g hg => hgs g (List.mem_cons_of_mem _ hg)) ⟨l, List.append_cancel_left hl⟩ with
        hprefix | ⟨f', rest, rfl, hrest⟩
      · exact .inl (List.prefix_cons_inj f |>.2 hprefix)
      · exact .inr ⟨f', rest, rfl, hrest⟩

end Framing
