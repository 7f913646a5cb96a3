import Mathlib

/-!
# Hashes that take a message block by block

A hash compresses one block of the message after the other into its state. What arrives of the
message in pieces is kept until a block is full (`absorb`). The pieces do not matter
(`absorb_append`), and a message that ends with a full block leaves the state that its blocks lead
to (`absorb_message`).
-/

namespace BlockHash

variable {σ α : Type*}

/-- The state after the full blocks, and what there is of the next one. -/
structure Buffered (σ α : Type*) where
  state : σ
  block : List α

section
variable (size : ℕ) (compress : σ → List α → σ)

/-- One more element of the message; a full block is compressed. -/
def push (b : Buffered σ α) (x : α) : Buffered σ α :=
  if b.block.length + 1 = size then ⟨compress b.state (b.block ++ [x]), []⟩
  else ⟨b.state, b.block ++ [x]⟩

/-- A piece of the message. -/
def absorb (b : Buffered σ α) (l : List α) : Buffered σ α := l.foldl (push size compress) b

end

variable {size : ℕ} {compress : σ → List α → σ} {b : Buffered σ α} {l l' : List α}

@[simp] theorem absorb_nil : absorb size compress b [] = b := rfl

theorem absorb_append : absorb size compress b (l ++ l') =
    absorb size compress (absorb size compress b l) l' :=
  List.foldl_append

theorem absorb_flatten {pieces : List (List α)} : absorb size compress b pieces.flatten =
    pieces.foldl (absorb size compress) b := by
  induction pieces generalizing b with
  | nil => rfl
  | cons piece pieces ih => rw [List.flatten_cons, absorb_append, ih, List.foldl_cons]

/-- What does not fill the block is kept. -/
theorem absorb_of_lt (h : b.block.length + l.length < size) :
    absorb size compress b l = ⟨b.state, b.block ++ l⟩ := by
  induction l generalizing b with
  | nil => rw [absorb_nil, List.append_nil]
  | cons x l ih =>
    rw [List.length_cons] at h
    have hpush : push size compress b x = ⟨b.state, b.block ++ [x]⟩ := if_neg (by omega)
    change absorb size compress (push size compress b x) l = _
    rw [hpush, ih (by rw [List.length_append, List.length_singleton]; omega), List.append_assoc]
    rfl

/-- What fills the block is compressed with it. -/
theorem absorb_of_eq (hne : l ≠ []) (h : b.block.length + l.length = size) :
    absorb size compress b l = ⟨compress b.state (b.block ++ l), []⟩ := by
  rcases List.eq_nil_or_concat l with rfl | ⟨front, x, rfl⟩
  · exact absurd rfl hne
  rw [List.concat_eq_append] at h ⊢
  rw [List.length_append, List.length_singleton] at h
  rw [absorb_append, absorb_of_lt (l := front) (by omega)]
  change push size compress ⟨b.state, b.block ++ front⟩ x = _
  unfold push
  rw [if_pos (by rw [List.length_append]; omega), List.append_assoc]

/-- The block is what is left of the message. -/
theorem length_block (h : b.block.length < size) :
    (absorb size compress b l).block.length = (b.block.length + l.length) % size := by
  induction l generalizing b with
  | nil => rw [absorb_nil, List.length_nil, Nat.add_zero, Nat.mod_eq_of_lt h]
  | cons x l ih =>
    change (absorb size compress (push size compress b x) l).block.length = _
    unfold push
    by_cases hfull : b.block.length + 1 = size
    · rw [if_pos hfull, ih (by rw [List.length_nil]; omega), List.length_nil, List.length_cons,
        ← Nat.add_assoc, Nat.add_right_comm, hfull, Nat.add_mod_left, Nat.zero_add]
    · rw [if_neg hfull]
      have hlength : (b.block ++ [x]).length = b.block.length + 1 := by
        rw [List.length_append, List.length_singleton]
      rw [ih (by rw [hlength]; omega), hlength, List.length_cons]
      congr 1
      omega

/-- Full blocks are compressed one after the other. -/
theorem absorb_blocks {s : σ} {blocks : List (List α)} (hpos : 0 < size)
    (h : ∀ block ∈ blocks, block.length = size) :
    absorb size compress ⟨s, []⟩ blocks.flatten = ⟨blocks.foldl compress s, []⟩ := by
  induction blocks generalizing s with
  | nil => rfl
  | cons block blocks ih =>
    obtain ⟨hblock, hrest⟩ := List.forall_mem_cons.1 h
    have hne : block ≠ [] := List.ne_nil_of_length_pos (hblock ▸ hpos)
    rw [List.flatten_cons, absorb_append, absorb_of_eq hne (by rw [hblock]; exact Nat.zero_add _),
      ih hrest]
    rfl

/-- The blocks of a message. -/
def Blocks (size : ℕ) (blocks : List (List α)) (message : List α) : Prop :=
  (∀ block ∈ blocks, block.length = size) ∧ blocks.flatten = message

/-- A message of the right length has blocks. -/
theorem exists_blocks {n : ℕ} (h : l.length = n * size) : ∃ blocks, Blocks size blocks l := by
  induction n generalizing l with
  | zero =>
    rw [Nat.zero_mul] at h
    exact ⟨[], List.forall_mem_nil _, (List.length_eq_zero_iff.1 h).symm⟩
  | succ n ih =>
    rw [Nat.succ_mul] at h
    obtain ⟨blocks, hsize, hflatten⟩ := @ih (l.drop size) (by rw [List.length_drop]; omega)
    refine ⟨l.take size :: blocks, List.forall_mem_cons.2 ⟨?_, hsize⟩, ?_⟩
    · rw [List.length_take]
      omega
    · rw [List.flatten_cons, hflatten, List.take_append_drop]

/-- **A message that ends with a full block leaves the state that its blocks lead to.** -/
theorem absorb_message {s : σ} {n : ℕ} (hpos : 0 < size) (h : l.length = n * size) :
    ∃ blocks, Blocks size blocks l ∧
      absorb size compress ⟨s, []⟩ l = ⟨blocks.foldl compress s, []⟩ := by
  obtain ⟨blocks, hblocks⟩ := exists_blocks h
  refine ⟨blocks, hblocks, ?_⟩
  rw [← hblocks.2]
  exact absorb_blocks hpos hblocks.1

/-- The zeros between the mark and the length of a message. -/
def zeros (size room : ℕ) (n : ℕ) : ℕ := (2 * size - room - 1 - n % size) % size

/-- With the mark, the zeros and the length the last block is full. -/
theorem padding_full {n room : ℕ} (hroom : room + 1 ≤ size) :
    ∃ k, n + 1 + zeros size room n + room = k * size := by
  have hpos : 0 < size := by omega
  have hmod := Nat.mod_lt n hpos
  have hdvd : size ∣ n + 1 + zeros size room n + room := by
    unfold zeros
    rw [Nat.dvd_iff_mod_eq_zero]
    have hsum : (n + 1 + (2 * size - room - 1 - n % size) % size + room) % size =
        (n % size + 1 + (2 * size - room - 1 - n % size) + room) % size := by
      rw [Nat.add_mod, Nat.add_mod (n + 1), Nat.mod_mod, Nat.add_mod n 1, ← Nat.add_mod n 1,
        ← Nat.add_mod (n + 1), Nat.add_mod (n % size + 1 + _), Nat.add_mod (n % size + 1),
        Nat.add_mod (n % size), Nat.mod_mod, ← Nat.add_mod n, ← Nat.add_mod (n + 1)]
    rw [hsum]
    have htotal : n % size + 1 + (2 * size - room - 1 - n % size) + room = 2 * size := by omega
    rw [htotal, Nat.mul_mod_left]
  obtain ⟨k, hk⟩ := hdvd
  exact ⟨k, by rw [hk, Nat.mul_comm]⟩

end BlockHash
