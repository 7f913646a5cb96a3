import Mathlib

/-!
# Parsers of bounded data

A parser reads a list of bytes and fills in structures that it allocates. What it does beyond the
bounds of either is a fault, and so is an `int` that overflows. `Decides d m c` says that `m` is
free of faults, and sets no field from bytes that are not there, exactly if `c` holds; its rules
follow the way a parser is put together.
-/

namespace Bounded

/-- What a parser must not do. -/
inductive Fault where
  | readOutside
  | writeOutside
  | overflow
  deriving DecidableEq, Repr

/-- A field was set to `value`, which was read from the `width` bytes at `pos`. -/
structure Setting where
  pos : Nat
  width : Nat
  value : Nat
  deriving DecidableEq, Repr

/-- The outcomes of the allocations to come, all successful behind the end of the list, and the
fields that were set. -/
structure Mem where
  allocs : List Bool := []
  fields : List Setting := []
  deriving DecidableEq, Repr

/-- A parser. -/
abbrev Parser (α : Type) := StateT Mem (Except Fault) α

/-! ## What a parser may do -/

/-- The big-endian number that the bytes are. -/
def beNat (l : List UInt8) : Nat := l.foldl (fun v b => v * 256 + b.toNat) 0

/-- The number in the `width` bytes at `off`, and zero if they are not all there. -/
def uint (d : List UInt8) (width off : Nat) : Nat :=
  if off + width ≤ d.length then beNat ((d.drop off).take width) else 0

/-- The result of an addition of type `int`. -/
def int (n : Nat) : Parser Nat := fun s => if n < 2 ^ 31 then .ok (n, s) else .error .overflow

/-- The byte at `off`, which is read without a check. -/
def load (d : List UInt8) (off : Nat) : Parser Nat := fun s =>
  if off < d.length then .ok ((d.getD off 0).toNat, s) else .error .readOutside

/-- The `len` bytes at `off` are copied without a check. -/
def copy (d : List UInt8) (off len : Nat) : Parser Unit := fun s =>
  if len = 0 ∨ off + len ≤ d.length then .ok ((), s) else .error .readOutside

/-- The `len` bytes at `off` of an object of `size` bytes are written. -/
def store (size off len : Nat) : Parser Unit := fun s =>
  if off + len ≤ size then .ok ((), s) else .error .writeOutside

/-- A field is set. -/
def set (f : Setting) : Parser Unit := fun s => .ok ((), { s with fields := f :: s.fields })

/-- The outcome of the next allocation. -/
def alloc : Parser Bool := fun s =>
  match s.allocs with
  | [] => .ok (true, s)
  | ok :: allocs => .ok (ok, { s with allocs })

/-- An object is allocated, and the parser goes on unless that fails. -/
def creating (k : Parser Bool) : Parser Bool := alloc >>= fun ok => if ok then k else pure false

/-- `body 0`, .., `body (n - 1)`. -/
def loop (body : Nat → Parser Unit) : Nat → Parser Unit
  | 0 => pure ()
  | n + 1 => loop body n >>= fun _ => body n

/-- A field that is read at an offset, with a check, as part of the number there. -/
structure Field where
  name : String
  off : Nat
  width : Nat
  part : Nat → Nat
  part_zero : part 0 = 0

/-- The fields are set from the bytes that follow `base`. -/
def setFields (d : List UInt8) (base : Nat) : List Field → Parser Unit
  | [] => pure ()
  | f :: fs => int (base + f.off) >>= fun pos =>
      set ⟨pos, f.width, f.part (uint d f.width pos)⟩ >>= fun _ => setFields d base fs

/-- The offsets of the fields are of type `int`. -/
def FieldsFit (base : Nat) (fs : List Field) : Prop := ∀ f ∈ fs, base + f.off < 2 ^ 31

instance (base : Nat) (fs : List Field) : Decidable (FieldsFit base fs) :=
  inferInstanceAs (Decidable (∀ f ∈ fs, base + f.off < 2 ^ 31))

/-! ## Steps without a fault -/

/-- A field whose bytes are not all there is zero. -/
def Setting.Good (d : List UInt8) (f : Setting) : Prop := d.length < f.pos + f.width → f.value = 0

/-- All fields that were set are good. -/
def Mem.Good (d : List UInt8) (s : Mem) : Prop := ∀ f ∈ s.fields, f.Good d

/-- The step has the result `a`, from any state. -/
def Yields (d : List UInt8) {α : Type} (m : Parser α) (a : α) : Prop :=
  ∀ s, ∃ s', m s = .ok (a, s') ∧ s'.allocs = s.allocs ∧ (s.Good d → s'.Good d) ∧
    ∀ f ∈ s.fields, f ∈ s'.fields

/-- The step is a fault, in any state. -/
def Fails {α : Type} (m : Parser α) : Prop := ∀ s, ∃ e, m s = .error e

section
variable {d : List UInt8} {α β : Type} {m : Parser α} {k : α → Parser β} {a : α} {b : β}
  {s s' : Mem} {e : Fault}

theorem bind_ok (h : m s = .ok (a, s')) : (m >>= k) s = k a s' := by
  change (m s >>= fun p => k p.1 p.2) = _
  rw [h]
  rfl

theorem bind_error (h : m s = .error e) : (m >>= k) s = .error e := by
  change (m s >>= fun p => k p.1 p.2) = _
  rw [h]
  rfl

theorem Yields.bind (hm : Yields d m a) (hk : Yields d (k a) b) : Yields d (m >>= k) b := by
  intro s
  obtain ⟨s₁, h₁, ha₁, hg₁, hf₁⟩ := hm s
  obtain ⟨s₂, h₂, ha₂, hg₂, hf₂⟩ := hk s₁
  exact ⟨s₂, (bind_ok h₁).trans h₂, ha₂.trans ha₁, hg₂ ∘ hg₁, fun f hf => hf₂ f (hf₁ f hf)⟩

theorem Fails.bind (hm : Fails m) : Fails (m >>= k) := fun s =>
  let ⟨e, he⟩ := hm s
  ⟨e, bind_error he⟩

theorem Yields.fails_bind (hm : Yields d m a) (hk : Fails (k a)) : Fails (m >>= k) := by
  intro s
  obtain ⟨s₁, h₁, _⟩ := hm s
  obtain ⟨e, he⟩ := hk s₁
  exact ⟨e, (bind_ok h₁).trans he⟩

theorem Yields.pure (d : List UInt8) (a : α) : Yields d (Pure.pure a : Parser α) a :=
  fun s => ⟨s, rfl, rfl, id, fun _ => id⟩

theorem Yields.of_ok (h : ∀ s, m s = .ok (a, s)) : Yields d m a :=
  fun s => ⟨s, h s, rfl, id, fun _ => id⟩

theorem yields_int {n : Nat} (h : n < 2 ^ 31) : Yields d (int n) n := .of_ok fun _ => if_pos h

theorem fails_int {n : Nat} (h : ¬n < 2 ^ 31) : Fails (int n) := fun _ => ⟨_, if_neg h⟩

theorem yields_load {off : Nat} (h : off < d.length) : Yields d (load d off) (d.getD off 0).toNat :=
  .of_ok fun _ => if_pos h

theorem fails_load {off : Nat} (h : ¬off < d.length) : Fails (load d off) :=
  fun _ => ⟨_, if_neg h⟩

theorem yields_copy {off len : Nat} (h : len = 0 ∨ off + len ≤ d.length) :
    Yields d (copy d off len) () := .of_ok fun _ => if_pos h

theorem fails_copy {off len : Nat} (h : ¬(len = 0 ∨ off + len ≤ d.length)) :
    Fails (copy d off len) := fun _ => ⟨_, if_neg h⟩

theorem yields_store {size off len : Nat} (h : off + len ≤ size) :
    Yields d (store size off len) () := .of_ok fun _ => if_pos h

theorem fails_store {size off len : Nat} (h : ¬off + len ≤ size) : Fails (store size off len) :=
  fun _ => ⟨_, if_neg h⟩

theorem yields_set {f : Setting} (h : f.Good d) : Yields d (set f) () := fun _ =>
  ⟨_, rfl, rfl, fun hg g hgm => (List.mem_cons.1 hgm).elim (fun hgf => hgf ▸ h) (hg g),
    fun _ hf => List.mem_cons_of_mem _ hf⟩

/-- A number that is read with a check is zero if its bytes are not all there. -/
theorem good_uint {width pos : Nat} {part : Nat → Nat} (h : part 0 = 0) :
    Setting.Good d ⟨pos, width, part (uint d width pos)⟩ := fun hshort => by
  simp only at hshort ⊢
  rw [uint, if_neg (by omega), h]

theorem yields_loop {body : Nat → Parser Unit} :
    ∀ {n : Nat}, (∀ i < n, Yields d (body i) ()) → Yields d (loop body n) ()
  | 0, _ => .pure d ()
  | n + 1, h => (yields_loop fun i hi => h i (by omega)).bind (h n (by omega))

theorem yields_setFields {base : Nat} :
    ∀ {fs : List Field}, FieldsFit base fs → Yields d (setFields d base fs) ()
  | [], _ => .pure d ()
  | f :: fs, h => by
    refine (yields_int (h f (List.mem_cons_self ..))).bind ?_
    exact (yields_set (good_uint f.part_zero)).bind
      (yields_setFields fun g hg => h g (List.mem_cons_of_mem _ hg))

theorem fails_setFields {base : Nat} :
    ∀ {fs : List Field}, ¬FieldsFit base fs → Fails (setFields d base fs)
  | [], h => absurd (fun _ hf => absurd hf (List.not_mem_nil)) h
  | f :: fs, h => by
    by_cases hf : base + f.off < 2 ^ 31
    · refine (yields_int (d := d) hf).fails_bind ?_
      refine (yields_set (good_uint f.part_zero)).fails_bind (fails_setFields fun hfs => h ?_)
      intro g hg
      rcases List.mem_cons.1 hg with rfl | hg
      · exact hf
      · exact hfs g hg
    · exact (fails_int hf).bind

end

/-! ## Parsers -/

/-- The parser is free of faults and sets good fields exactly if `c` holds: if it does, whatever the
outcomes of the allocations; if not, when they all succeed, it is a fault, or ends with a result
and a field that is not good. -/
structure Decides (d : List UInt8) (m : Parser Bool) (c : Prop) : Prop where
  stays : c → ∀ s, s.Good d → ∃ r s', m s = .ok (r, s') ∧ s'.Good d
  breaks : ¬c → ∀ s, s.allocs = [] →
    (∃ e, m s = .error e) ∨ ∃ s', m s = .ok (true, s') ∧ ¬s'.Good d

namespace Decides

variable {d : List UInt8} {α : Type} {m : Parser α} {a : α} {k : α → Parser Bool} {c c' p : Prop}

theorem congr {n : Parser Bool} (h : Decides d n c) (hc : c ↔ c') : Decides d n c' :=
  ⟨fun hc' => h.stays (hc.2 hc'), fun hc' => h.breaks fun hc'' => hc' (hc.1 hc'')⟩

/-- A result. -/
theorem ret (d : List UInt8) (r : Bool) : Decides d (pure r) True :=
  ⟨fun _ s hs => ⟨r, s, rfl, hs⟩, fun h => absurd trivial h⟩

/-- A step that is free of faults if `p` holds, and one if not. -/
theorem after (hm : p → Yields d m a) (hf : ¬p → Fails m) (hk : p → Decides d (k a) c) :
    Decides d (m >>= k) (p ∧ c) := by
  refine ⟨fun ⟨hp, hc⟩ s hs => ?_, fun hpc s hs => ?_⟩
  · obtain ⟨s₁, h₁, _, hg, _⟩ := hm hp s
    obtain ⟨r, s₂, h₂, hg₂⟩ := (hk hp).stays hc s₁ (hg hs)
    exact ⟨r, s₂, (bind_ok h₁).trans h₂, hg₂⟩
  · by_cases hp : p
    · obtain ⟨s₁, h₁, ha, _⟩ := hm hp s
      rw [bind_ok h₁]
      exact (hk hp).breaks (fun hc => hpc ⟨hp, hc⟩) s₁ (ha.trans hs)
    · obtain ⟨e, he⟩ := hf hp s
      exact .inl ⟨e, bind_error he⟩

/-- A step that is always free of faults. -/
theorem next (hm : Yields d m a) (hk : Decides d (k a) c) : Decides d (m >>= k) c :=
  (after (p := True) (fun _ => hm) (fun h => absurd trivial h) fun _ => hk).congr
    (by simp)

/-- A step that is always a fault. -/
theorem never (hm : Fails m) : Decides d (m >>= k) False :=
  ⟨False.elim, fun _ s _ => let ⟨e, he⟩ := hm s; .inl ⟨e, bind_error he⟩⟩

/-- An allocation, and what is done if it succeeds; otherwise the result is `r`. -/
theorem allocating {n : Parser Bool} (r : Bool) (h : Decides d n c) :
    Decides d (alloc >>= fun ok => if ok then n else pure r) c := by
  refine ⟨fun hc s hs => ?_, fun hc s hs => ?_⟩
  · rcases s with ⟨_ | ⟨ok, allocs⟩, fields⟩
    · exact h.stays hc _ hs
    · cases ok with
      | true => exact h.stays hc ⟨allocs, fields⟩ hs
      | false => exact ⟨r, ⟨allocs, fields⟩, rfl, hs⟩
  · rcases s with ⟨_ | ⟨ok, allocs⟩, fields⟩
    · exact h.breaks hc _ rfl
    · cases hs

theorem creating {n : Parser Bool} (h : Decides d n c) : Decides d (creating n) c :=
  h.allocating false

/-- The last fields: one that may be bad, and others. -/
theorem last {f : Setting} {rest : Parser Unit} (hrest : Yields d rest ()) :
    Decides d (set f >>= fun _ => rest >>= fun _ => pure true) (f.Good d) := by
  refine ⟨fun hf => (next (yields_set hf) (next hrest (ret d true))).stays trivial,
    fun hf s _ => .inr ?_⟩
  obtain ⟨s', h, _, _, hmem⟩ := hrest { s with fields := f :: s.fields }
  refine ⟨s', ?_, fun hg => hf (hg f (hmem f (List.mem_cons_self ..)))⟩
  have hset : set f s = .ok ((), { s with fields := f :: s.fields }) := rfl
  rw [bind_ok hset, bind_ok h]
  rfl

/-- **What is decided**: the parser stays within its bounds, whatever the outcomes of the
allocations, exactly if `c` holds. -/
theorem iff {n : Parser Bool} (h : Decides d n c) :
    (∀ allocs, ∃ r s, n { allocs } = .ok (r, s) ∧ (r = true → s.Good d)) ↔ c := by
  refine ⟨fun hall => ?_, fun hc allocs => ?_⟩
  · by_contra hc
    obtain ⟨r, s, hr, hg⟩ := hall []
    rcases h.breaks hc {} rfl with ⟨e, he⟩ | ⟨s', hs', hbad⟩
    · cases he.symm.trans hr
    · obtain ⟨rfl, rfl⟩ := Prod.mk.inj (Except.ok.inj (hs'.symm.trans hr))
      exact hbad (hg rfl)
  · obtain ⟨r, s, hr, hg⟩ := h.stays hc { allocs } fun f hf => absurd hf List.not_mem_nil
    exact ⟨r, s, hr, fun _ => hg⟩

end Decides

end Bounded
