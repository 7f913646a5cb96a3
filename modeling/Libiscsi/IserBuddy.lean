import Mathlib.Algebra.Order.Ring.Nat
import Mathlib.Data.Nat.Log
import Mathlib.Logic.Function.Basic
import Libiscsi.Lib.Buddy

/-!
# The chunks of the iSER transport

The buffers of the iSER transport are cut out of registered chunks (`lib/iser.c`), each with a tree
of levels for its units. The level of a node is that of the largest free block below it. It is zero
for a node that is allocated, and below that node the levels stay those of free blocks, which is how
a block that is freed is found (`freeNode_eq`).
-/

namespace Libiscsi

open Buddy

/-! ## The allocator -/

/-- `DATA_BUFFER_UNIT_SHIFT`. -/
def dataBufferUnitShift : ℕ := 12

/-- `DATA_BUFFER_UNIT_SIZE`. -/
def dataBufferUnitSize : ℕ := 2 ^ dataBufferUnitShift

/-- `DATA_BUFFER_CHUNK_SHIFT`. -/
def dataBufferChunkShift : ℕ := 22

/-- `DATA_BUFFER_CHUNK_SIZE`. -/
def dataBufferChunkSize : ℕ := 2 ^ dataBufferChunkShift

/-- `DATA_BUFFER_CHUNK_UNITS_SHIFT`. -/
def dataBufferChunkUnitsShift : ℕ := dataBufferChunkShift - dataBufferUnitShift

/-- `DATA_BUFFER_CHUNK_UNITS`. -/
def dataBufferChunkUnits : ℕ := 2 ^ dataBufferChunkUnitsShift

/-- `struct iser_buf_chunk`, without its region and the next chunk. The bytes of the tree are never
negative. -/
structure IserBufChunk where
  buf : ℕ
  tree : ℕ → ℕ

theorem shiftRight_one (n : ℕ) : n >>> 1 = n / 2 := by
  rw [Nat.shiftRight_eq_div_pow, pow_one]

/-- `fls`. -/
def fls (x : ℕ) : ℕ := if x = 0 then 0 else Nat.log2 x + 1

/-- `iser_buf_chunk_tree_propagate`. -/
def iserBufChunkTreePropagate (tree : ℕ → ℕ) (pos level : ℕ) : ℕ → ℕ :=
  let parent := pos >>> 1
  if h : parent = 0 then tree
  else
    let left := tree (parent <<< 1)
    let right := tree (parent <<< 1 ||| 1)
    let value :=
      if left = level + 1 - 1 then (if right = level + 1 - 1 then level + 1 else level + 1 - 1)
      else if left > right then left else right
    if value = tree parent then tree
    else iserBufChunkTreePropagate (Function.update tree parent value) parent (level + 1)
termination_by pos
decreasing_by
  have hroot : ¬pos >>> 1 = 0 := h
  change pos >>> 1 < pos
  rw [shiftRight_one] at hroot ⊢
  omega

/-- The node of the block that is freed, with its level. There is none where the tree is left. -/
def freeNode (tree : ℕ → ℕ) (pos level : ℕ) : Option (ℕ × ℕ) :=
  if h : pos = 0 then none
  else if tree pos = 0 then some (pos, level)
  else freeNode tree (pos >>> 1) (level + 1)
termination_by pos
decreasing_by
  rw [shiftRight_one]
  omega

/-- `iser_buf_chunk_free`. -/
def iserBufChunkFree (chunk : IserBufChunk) (ptr : ℕ) : Option IserBufChunk := do
  let unit := (ptr - chunk.buf) >>> dataBufferUnitShift
  let (pos, level) ← freeNode chunk.tree (unit + dataBufferChunkUnits) 1
  let tree := Function.update chunk.tree pos level
  some { chunk with tree := iserBufChunkTreePropagate tree pos level }

/-- The lookup of a free node. -/
def allocNode (tree : ℕ → ℕ) (want : ℕ) : ℕ → ℕ → ℕ × ℕ
  | 0, pos => (pos, 0)
  | level + 1, pos =>
    if want < level + 1 then
      let pos := pos <<< 1
      allocNode tree want level (if tree pos ≥ want then pos else pos ||| 1)
    else (pos, level + 1)

/-- `iser_buf_chunk_alloc`. -/
def iserBufChunkAlloc (chunk : IserBufChunk) (want : ℕ) : Option (ℕ × IserBufChunk) :=
  if chunk.tree 1 < want then none
  else
    let (pos, level) := allocNode chunk.tree want (dataBufferChunkUnitsShift + 1) 1
    let tree := Function.update chunk.tree pos 0
    let unit := (pos <<< (level - 1)) - dataBufferChunkUnits
    some (chunk.buf + unit <<< dataBufferUnitShift,
      { chunk with tree := iserBufChunkTreePropagate tree pos level })

/-- `memset` of a part of the tree. -/
def treeMemset (tree : ℕ → ℕ) (start level n : ℕ) : ℕ → ℕ := fun pos =>
  if start ≤ pos ∧ pos < start + n then level else tree pos

/-- The tree of a chunk that `iser_tx_desc_alloc` has allocated, whatever stood there. -/
def iserBufChunkInit (tree : ℕ → ℕ) : ℕ → ℕ :=
  (List.range (dataBufferChunkUnitsShift + 1)).foldl
    (fun tree i => treeMemset tree (1 <<< i) (dataBufferChunkUnitsShift - i + 1) (1 <<< i)) tree

/-- The level that `iser_tx_desc_alloc` wants for a size. -/
def iserWant (dataSize : ℕ) : ℕ := fls ((dataSize * 2 - 1) / dataBufferUnitSize / 2) + 1

/-! ## Nodes -/

/-- A position is that of a node at a height. -/
def IsNode (k h pos : ℕ) : Prop := h ≤ k ∧ pos / 2 ^ (k - h) = 1

section
variable {k h g pos q want : ℕ} {tree : ℕ → ℕ} {live live' : Finset ℕ}

theorem two_mul_or_one (n : ℕ) : 2 * n ||| 1 = 2 * n + 1 := by
  have hor := Nat.two_pow_add_eq_or_of_lt (i := 1) (b := 1) (by decide) n
  rw [pow_one] at hor
  exact hor.symm

theorem shiftLeft_one (n : ℕ) : n <<< 1 = 2 * n := by
  rw [Nat.shiftLeft_eq, pow_one, Nat.mul_comm]

theorem IsNode.ne_zero (hn : IsNode k h pos) : pos ≠ 0 := by
  have hdiv := hn.2
  rintro rfl
  rw [Nat.zero_div] at hdiv
  cases hdiv

/-- The parent of a node that is not the root. -/
theorem IsNode.parent (hn : IsNode k h pos) (hroot : pos / 2 ≠ 0) : IsNode k (h + 1) (pos / 2) := by
  obtain ⟨hle, hdiv⟩ := hn
  have hlt : h < k := by
    by_contra hge
    obtain rfl : h = k := by omega
    rw [Nat.sub_self, pow_zero, Nat.div_one] at hdiv
    omega
  refine ⟨hlt, ?_⟩
  rw [Nat.div_div_eq_div_mul, ← pow_succ', ← hdiv]
  congr 2
  omega

/-- The children of a node. -/
theorem IsNode.child {c : ℕ} (hn : IsNode k (h + 1) (c / 2)) : IsNode k h c := by
  obtain ⟨hle, hdiv⟩ := hn
  refine ⟨by omega, ?_⟩
  rw [← hdiv, Nat.div_div_eq_div_mul, ← pow_succ']
  congr 2
  omega

theorem IsNode.div (hn : IsNode k h pos) {d : ℕ} (hd : h + d ≤ k) :
    IsNode k (h + d) (pos / 2 ^ d) := by
  refine ⟨hd, ?_⟩
  rw [Nat.div_div_eq_div_mul, ← pow_add, ← hn.2]
  congr 2
  omega

/-- There is nothing above the root. -/
theorem IsNode.le_of_div_ne_zero (hn : IsNode k h pos) {d : ℕ} (hd : pos / 2 ^ d ≠ 0) :
    h + d ≤ k := by
  by_contra hlt
  obtain ⟨e, rfl⟩ : ∃ e, d = k - h + 1 + e := ⟨d - (k - h + 1), by have := hn.1; omega⟩
  rw [pow_add, ← Nat.div_div_eq_div_mul, pow_succ, ← Nat.div_div_eq_div_mul, hn.2,
    Nat.div_eq_of_lt one_lt_two, Nat.zero_div] at hd
  exact hd rfl

/-- What is above a node is above its parent. -/
theorem div_parent (hg : h < g) : pos / 2 ^ (g - h) = pos / 2 / 2 ^ (g - (h + 1)) := by
  rw [Nat.div_div_eq_div_mul, ← pow_succ']
  congr 2
  omega

/-- A position is that of a node at one height only. -/
theorem IsNode.unique (hn : IsNode k h pos) (hg : IsNode k g pos) : h = g := by
  have hlog : ∀ {h}, IsNode k h pos → Nat.log 2 pos = k - h := by
    intro h hn
    have hpos : 0 < 2 ^ (k - h) := Nat.two_pow_pos _
    have hdiv := hn.2
    rw [Nat.div_eq_iff hpos] at hdiv
    refine Nat.log_eq_of_pow_le_of_lt_pow (by omega) ?_
    rw [pow_succ]
    omega
  have := hlog hn
  have := hlog hg
  have := hn.1
  have := hg.1
  omega

/-! ## Propagation -/

/-- A turn of the loop of `iser_buf_chunk_tree_propagate`. -/
theorem propagate_eq (tree : ℕ → ℕ) (pos level : ℕ) :
    iserBufChunkTreePropagate tree pos level =
      if pos / 2 = 0 then tree
      else
        if join (level + 1) (tree (2 * (pos / 2))) (tree (2 * (pos / 2) + 1)) = tree (pos / 2) then
          tree
        else
          iserBufChunkTreePropagate (Function.update tree (pos / 2)
            (join (level + 1) (tree (2 * (pos / 2))) (tree (2 * (pos / 2) + 1)))) (pos / 2)
              (level + 1) := by
  have hmax : ∀ l r : ℕ, (if l > r then l else r) = max l r := by
    intro l r
    split <;> omega
  rw [iserBufChunkTreePropagate]
  simp only [shiftRight_one, shiftLeft_one, two_mul_or_one, hmax]
  rfl

/-- The tree has the values of its nodes. -/
def Agrees (k : ℕ) (tree : ℕ → ℕ) (live : Finset ℕ) : Prop :=
  ∀ g q, IsNode k g q → tree q = value live g q

/-- The tree has the values of its nodes once the change at a node is propagated. -/
structure Pending (k : ℕ) (tree : ℕ → ℕ) (live live' : Finset ℕ) (h pos : ℕ) : Prop where
  node : IsNode k h pos
  done : ∀ g q, IsNode k g q → ¬(h < g ∧ q = pos / 2 ^ (g - h)) → tree q = value live' g q
  todo : ∀ g q, IsNode k g q → h < g → q = pos / 2 ^ (g - h) →
    tree q = value live g q ∧ q ∉ live ∧ q ∉ live'
  beside : ∀ g q, IsNode k g q → h ≤ g → q ≠ pos / 2 ^ (g - h) → value live g q = value live' g q

/-- A value that stays as it was leaves those above it as they were. By induction on the height: the
other child is beside the path. -/
theorem value_eq_above (hn : IsNode k h pos)
    (hlive : ∀ d, pos / 2 ^ d ≠ 0 → pos / 2 ^ d ∉ live ∧ pos / 2 ^ d ∉ live')
    (hvalue : value live h pos = value live' h pos)
    (hbeside : ∀ g q, IsNode k g q → h ≤ g → q ≠ pos / 2 ^ (g - h) →
      value live g q = value live' g q) (d : ℕ) (hd : pos / 2 ^ d ≠ 0) :
    value live (h + d) (pos / 2 ^ d) = value live' (h + d) (pos / 2 ^ d) := by
  induction d with
  | zero =>
    rw [pow_zero, Nat.div_one]
    exact hvalue
  | succ d ih =>
    have hparent : pos / 2 ^ (d + 1) = pos / 2 ^ d / 2 := div_two_pow_succ pos d
    have hih := ih (by omega)
    have hchild : ∀ c, c = 2 * (pos / 2 ^ (d + 1)) ∨ c = 2 * (pos / 2 ^ (d + 1)) + 1 →
        value live (h + d) c = value live' (h + d) c := by
      intro c hc
      by_cases hpath : c = pos / 2 ^ d
      · rw [hpath]
        exact hih
      · have hnode := hn.div (hn.le_of_div_ne_zero hd)
        have hhalf : pos / 2 ^ (d + 1) = c / 2 := by omega
        rw [hhalf] at hnode
        exact hbeside (h + d) c hnode.child (Nat.le_add_right _ _)
          (by rwa [Nat.add_sub_cancel_left])
    rw [← Nat.add_assoc, value_succ (hlive _ hd).1, value_succ (hlive _ hd).2,
      hchild _ (.inl rfl), hchild _ (.inr rfl)]

/-- **A change is propagated.** By induction on the node: where a level is what it was, those above
it are. -/
theorem Pending.propagate (hp : Pending k tree live live' h pos) :
    Agrees k (iserBufChunkTreePropagate tree pos (h + 1)) live' := by
  induction pos using Nat.strong_induction_on generalizing tree h with
  | _ pos ih =>
    rw [propagate_eq]
    by_cases hroot : pos / 2 = 0
    · rw [if_pos hroot]
      intro g q hq
      refine hp.done g q hq fun ⟨hg, heq⟩ => hq.ne_zero ?_
      rw [heq, div_parent hg, hroot, Nat.zero_div]
    rw [if_neg hroot]
    have hparent := hp.node.parent hroot
    obtain ⟨htree, hlive, hlive'⟩ := hp.todo (h + 1) (pos / 2) hparent (Nat.lt_succ_self h)
      (by rw [Nat.add_sub_cancel_left, pow_one])
    have hchild : ∀ c, c / 2 = pos / 2 → tree c = value live' h c := fun c hc =>
      hp.done h c (IsNode.child (hc ▸ hparent)) fun hlt => absurd hlt.1 (lt_irrefl h)
    have hvalue : join (h + 1 + 1) (tree (2 * (pos / 2))) (tree (2 * (pos / 2) + 1)) =
        value live' (h + 1) (pos / 2) := by
      rw [value_succ hlive', hchild _ (by omega), hchild _ (by omega)]
    rw [hvalue]
    by_cases hsame : value live' (h + 1) (pos / 2) = tree (pos / 2)
    · rw [if_pos hsame]
      intro g q hq
      by_cases hpath : h < g ∧ q = pos / 2 ^ (g - h)
      · obtain ⟨hg, heq⟩ := hpath
        rw [(hp.todo g q hq hg heq).1]
        rw [div_parent hg] at heq
        have habove := @value_eq_above k (h + 1) (pos / 2) live live' hparent (fun d hd => ?_)
          (htree.symm.trans hsame.symm) (fun g' q' hnode hg' hq' => ?_) (g - (h + 1))
          (heq ▸ hq.ne_zero)
        · rw [← heq, Nat.add_sub_cancel' hg] at habove
          exact habove
        · have hle := hparent.le_of_div_ne_zero hd
          exact (hp.todo _ _ (hparent.div hle) (by omega)
            (by rw [div_parent (by omega)]; congr 2; omega)).2
        · exact hp.beside g' q' hnode (by omega) (by rwa [div_parent hg'])
      · exact hp.done g q hq hpath
    rw [if_neg hsame]
    refine ih (pos / 2) (by omega) ⟨hparent, fun g q hq hpath => ?_, fun g q hq hg heq => ?_,
      fun g q hq hg hne => ?_⟩
    · by_cases hself : q = pos / 2
      · subst hself
        rw [Function.update_self, hq.unique hparent]
      · rw [Function.update_of_ne hself]
        refine hp.done g q hq fun ⟨hg, heq⟩ => ?_
        rw [div_parent hg] at heq
        by_cases htop : g = h + 1
        · rw [htop, Nat.sub_self, pow_zero, Nat.div_one] at heq
          exact hself heq
        · exact hpath ⟨by omega, heq⟩
    · have hself : q ≠ pos / 2 := by
        rintro rfl
        exact absurd (hq.unique hparent) (by omega)
      rw [Function.update_of_ne hself]
      exact hp.todo g q hq (by omega) (by rwa [div_parent (by omega)])
    · exact hp.beside g q hq (by omega) (by rwa [div_parent hg])

/-! ## Allocation -/

/-- A node that is not above another one does not depend on it. -/
theorem not_under (hn : IsNode k h pos) (hq : IsNode k g q) (hself : q ≠ pos)
    (hpath : ¬(h < g ∧ q = pos / 2 ^ (g - h))) : ¬Under g q pos := by
  rintro ⟨d, -, rfl⟩
  have hheight := hq.unique (hn.div (hn.le_of_div_ne_zero hq.ne_zero))
  cases d with
  | zero => exact hself (by rw [pow_zero, Nat.div_one])
  | succ d => exact hpath ⟨by omega, by rw [hheight, Nat.add_sub_cancel_left]⟩

/-- A change at a node leaves the values beside it. -/
theorem value_beside (hn : IsNode k h pos) (hlive : ∀ q, q ≠ pos → (q ∈ live ↔ q ∈ live'))
    (hq : IsNode k g q) (hself : q ≠ pos) (hpath : ¬(h < g ∧ q = pos / 2 ^ (g - h))) :
    value live g q = value live' g q := by
  refine value_congr fun q' hq' => hlive q' ?_
  rintro rfl
  exact not_under hn hq hself hpath hq'

/-- A change at a node is pending once it is written, if no node above it is live. -/
theorem Agrees.pending (ht : Agrees k tree live) (hn : IsNode k h pos)
    (hlive : ∀ q, q ≠ pos → (q ∈ live ↔ q ∈ live'))
    (habove : ∀ d, d ≠ 0 → h + d ≤ k → pos / 2 ^ d ∉ live) :
    Pending k (Function.update tree pos (value live' h pos)) live live' h pos := by
  refine ⟨hn, fun g q hq hpath => ?_, fun g q hq hg heq => ?_, fun g q hq hg hne => ?_⟩
  · by_cases hself : q = pos
    · subst hself
      rw [Function.update_self, hq.unique hn]
    · rw [Function.update_of_ne hself, ht g q hq]
      exact value_beside hn hlive hq hself hpath
  · have hself : q ≠ pos := by
      rintro rfl
      exact absurd (hq.unique hn) (by omega)
    have hq' : q ∉ live := heq ▸ habove (g - h) (by omega) (by have := hq.1; omega)
    exact ⟨by rw [Function.update_of_ne hself, ht g q hq], hq', (hlive q hself).not.1 hq'⟩
  · refine value_beside hn hlive hq ?_ fun hpath => hne hpath.2
    rintro rfl
    refine hne ?_
    rw [hq.unique hn, Nat.sub_self, pow_zero, Nat.div_one]

/-- The tree after a free node is allocated. -/
theorem Agrees.alloc (ht : Agrees k tree live) (hn : IsNode k h pos)
    (hfree : FreeIn live k 1 h pos) :
    Agrees k (iserBufChunkTreePropagate (Function.update tree pos 0) pos (h + 1))
      (insert pos live) := by
  obtain ⟨d, hd, -, -, hpath⟩ := hfree
  have hpending := @Agrees.pending _ _ _ _ live (insert pos live) ht hn
    (fun q hq => by rw [Finset.mem_insert, or_iff_right hq])
    (fun e _ he => hpath e (by omega))
  rw [value_of_mem (Finset.mem_insert_self pos live)] at hpending
  exact hpending.propagate

/-- The tree after a live node is freed, which has no live node below or above it. -/
theorem Agrees.free (ht : Agrees k tree live) (hn : IsNode k h pos)
    (hbelow : ∀ q, Under h pos q → q ∈ live → q = pos)
    (habove : ∀ d, d ≠ 0 → h + d ≤ k → pos / 2 ^ d ∉ live) :
    Agrees k (iserBufChunkTreePropagate (Function.update tree pos (h + 1)) pos (h + 1))
      (live.erase pos) := by
  have hpending := @Agrees.pending _ _ _ _ live (live.erase pos) ht hn
    (fun q hq => by rw [Finset.mem_erase, and_iff_right hq]) habove
  have hvalue : value (live.erase pos) h pos = h + 1 :=
    value_eq_level_iff.2 fun q hq hmem =>
      (Finset.mem_erase.1 hmem).1 (hbelow q hq (Finset.mem_erase.1 hmem).2)
  rw [hvalue] at hpending
  exact hpending.propagate

/-- The lookup finds a free node of the level that is wanted. By induction on the height. -/
theorem allocNode_spec (ht : Agrees k tree live) (hn : IsNode k h pos)
    (hwant : want < h + 1) (hvalue : want < value live h pos) :
    ∃ q, allocNode tree (want + 1) (h + 1) pos = (q, want + 1) ∧ FreeIn live h pos want q := by
  induction h generalizing pos with
  | zero =>
    obtain rfl : want = 0 := by omega
    have hle := @value_le live 0 pos
    exact ⟨pos, rfl, freeIn_self (value_eq_level_iff.1 (by omega))⟩
  | succ h ih =>
    unfold allocNode
    by_cases hlt : want + 1 < h + 1 + 1
    · rw [if_pos hlt]
      have hlive : pos ∉ live := by
        intro hmem
        rw [value_of_mem hmem] at hvalue
        exact absurd hvalue (Nat.not_lt_zero _)
      rw [value_succ hlive, lt_join value_le value_le] at hvalue
      have hchild : ∀ c, c / 2 = pos → IsNode k h c := fun c hc => IsNode.child (hc ▸ hn)
      have hleft := ht h (2 * pos) (hchild _ (by omega))
      simp only [shiftLeft_one, two_mul_or_one]
      have hc : ∃ c, c / 2 = pos ∧ want < value live h c ∧
          (if tree (2 * pos) ≥ want + 1 then 2 * pos else 2 * pos + 1) = c := by
        by_cases hge : tree (2 * pos) ≥ want + 1
        · exact ⟨2 * pos, by omega, by omega, if_pos hge⟩
        · exact ⟨2 * pos + 1, by omega, by omega, if_neg hge⟩
      obtain ⟨c, hhalf, hc, hif⟩ := hc
      rw [hif]
      obtain ⟨q, hq, hfree⟩ := ih (hchild c hhalf) (by omega) hc
      refine ⟨q, hq, ?_⟩
      have hup := hfree.parent (hhalf.symm ▸ hlive)
      rw [hhalf] at hup
      exact hup
    · rw [if_neg hlt]
      obtain rfl : want = h + 1 := by omega
      have hle := @value_le live (h + 1) pos
      exact ⟨pos, rfl, freeIn_self (value_eq_level_iff.1 (by omega))⟩

/-- **A block that is freed is found from its first unit.** By induction on the levels between the
node and its first leaf, which are those of free blocks. -/
theorem freeNode_eq (ht : Agrees k tree live) (hn : IsNode k h pos) (hmem : pos ∈ live)
    (hbelow : ∀ q, Under h pos q → q ∈ live → q = pos) {e : ℕ} (he : e ≤ h) :
    freeNode tree (pos * 2 ^ e) (h - e + 1) = some (pos, h + 1) := by
  induction e with
  | zero =>
    rw [pow_zero, Nat.mul_one, freeNode, dif_neg hn.ne_zero, ht h pos hn, value_of_mem hmem,
      if_pos rfl, Nat.sub_zero]
  | succ e ih =>
    have hpos : 0 < pos := Nat.pos_of_ne_zero hn.ne_zero
    have hne : pos * 2 ^ (e + 1) ≠ 0 := (Nat.mul_pos hpos (Nat.two_pow_pos _)).ne'
    have hdiv : pos * 2 ^ (e + 1) / 2 ^ (e + 1) = pos :=
      Nat.mul_div_cancel _ (Nat.two_pow_pos _)
    have hnode : IsNode k (h - (e + 1)) (pos * 2 ^ (e + 1)) := by
      refine ⟨by have := hn.1; omega, ?_⟩
      have hsplit : k - (h - (e + 1)) = (e + 1) + (k - h) := by
        have := hn.1
        omega
      rw [hsplit, pow_add 2 (e + 1), ← Nat.div_div_eq_div_mul, hdiv]
      exact hn.2
    have hfull : value live (h - (e + 1)) (pos * 2 ^ (e + 1)) = h - (e + 1) + 1 := by
      refine value_eq_level_iff.2 fun q hq hlive => ?_
      obtain ⟨d, hd, hq⟩ := hq
      have hunder : Under h pos q :=
        ⟨d + (e + 1), by omega, by rw [pow_add, ← Nat.div_div_eq_div_mul, hq, hdiv]⟩
      have hself := hbelow q hunder hlive
      subst hself
      have hdle : q / 2 ^ d ≤ q := Nat.div_le_self _ _
      have hpow : 2 ≤ 2 ^ (e + 1) := Nat.pow_le_pow_right two_pos (Nat.succ_le_succ (Nat.zero_le e))
      have hmul := Nat.mul_le_mul_left q hpow
      omega
    rw [freeNode, dif_neg hne, ht _ _ hnode, hfull, if_neg (Nat.succ_ne_zero _), shiftRight_one]
    have hhalf : pos * 2 ^ (e + 1) / 2 = pos * 2 ^ e := by
      rw [pow_succ, ← Nat.mul_assoc, Nat.mul_div_cancel _ two_pos]
    rw [hhalf, ← ih (by omega)]
    congr 1
    omega

end

/-! ## Blocks -/

/-- A block of a chunk, with its level. -/
structure ChunkBlock where
  ptr : ℕ
  want : ℕ

namespace ChunkBlock

/-- The bytes of a block. -/
def size (b : ChunkBlock) : ℕ := 2 ^ (b.want - 1) * dataBufferUnitSize

/-- Two blocks have no byte in common. -/
def Disjoint (b c : ChunkBlock) : Prop :=
  ∀ a, ¬((b.ptr ≤ a ∧ a < b.ptr + b.size) ∧ c.ptr ≤ a ∧ a < c.ptr + c.size)

/-- A block lies inside the chunk, and is aligned to its size. -/
structure InChunk (buf : ℕ) (b : ChunkBlock) : Prop where
  want_pos : 1 ≤ b.want
  le_ptr : buf ≤ b.ptr
  aligned : b.size ∣ b.ptr - buf
  le_end : b.ptr + b.size ≤ buf + dataBufferChunkSize

end ChunkBlock

/-- The block of a node at a height. -/
def nodeBlock (buf h pos : ℕ) : ChunkBlock where
  ptr := buf + ((pos <<< h) - dataBufferChunkUnits) <<< dataBufferUnitShift
  want := h + 1

section
variable {buf h g pos q : ℕ}

/-- The first unit of a node is one of the chunk. -/
theorem IsNode.bounds (hn : IsNode dataBufferChunkUnitsShift h pos) :
    dataBufferChunkUnits ≤ pos * 2 ^ h ∧ pos * 2 ^ h + 2 ^ h ≤ 2 * dataBufferChunkUnits := by
  obtain ⟨hle, hdiv⟩ := hn
  have hsplit : dataBufferChunkUnits = 2 ^ (dataBufferChunkUnitsShift - h) * 2 ^ h := by
    unfold dataBufferChunkUnits
    rw [← pow_add, Nat.sub_add_cancel hle]
  rw [Nat.div_eq_iff (Nat.two_pow_pos _)] at hdiv
  obtain ⟨hlow, hhigh⟩ := hdiv
  have hpos := Nat.two_pow_pos (dataBufferChunkUnitsShift - h)
  rw [hsplit, ← Nat.mul_assoc, ← Nat.succ_mul]
  exact ⟨Nat.mul_le_mul_right _ (by omega), Nat.mul_le_mul_right _ (by omega)⟩

theorem nodeBlock_ptr (buf h pos : ℕ) : (nodeBlock buf h pos).ptr =
    buf + (pos * 2 ^ h - dataBufferChunkUnits) * dataBufferUnitSize := by
  unfold nodeBlock
  rw [Nat.shiftLeft_eq, Nat.shiftLeft_eq]
  rfl

theorem nodeBlock_size (buf h pos : ℕ) :
    (nodeBlock buf h pos).size = 2 ^ h * dataBufferUnitSize := rfl

theorem dataBufferChunkSize_eq :
    dataBufferChunkSize = dataBufferChunkUnits * dataBufferUnitSize := by
  decide

/-- The blocks of the nodes are those that lie inside the chunk and are aligned to their size. -/
theorem inChunk_iff {b : ChunkBlock} : b.InChunk buf ↔
    ∃ h pos, IsNode dataBufferChunkUnitsShift h pos ∧ b = nodeBlock buf h pos := by
  have hunit : 0 < dataBufferUnitSize := Nat.two_pow_pos _
  constructor
  · rintro ⟨hwant, hle, ⟨m, hm⟩, hend⟩
    obtain ⟨ptr, want⟩ := b
    simp only at hwant hle
    obtain ⟨h, rfl⟩ : ∃ h, want = h + 1 := ⟨want - 1, by omega⟩
    unfold ChunkBlock.size at hm hend
    simp only [Nat.add_sub_cancel] at hm hend
    have hbytes : (m + 1) * 2 ^ h * dataBufferUnitSize ≤
        dataBufferChunkUnits * dataBufferUnitSize := by
      rw [← dataBufferChunkSize_eq]
      have hexpand : (m + 1) * 2 ^ h * dataBufferUnitSize =
          2 ^ h * dataBufferUnitSize * m + 2 ^ h * dataBufferUnitSize := by
        rw [Nat.mul_assoc, Nat.succ_mul, Nat.mul_comm m]
      omega
    have hunits : (m + 1) * 2 ^ h ≤ 2 ^ dataBufferChunkUnitsShift :=
      Nat.le_of_mul_le_mul_right hbytes hunit
    have hh : h ≤ dataBufferChunkUnitsShift :=
      (Nat.pow_le_pow_iff_right one_lt_two).1
        ((Nat.le_mul_of_pos_left _ (Nat.succ_pos m)).trans hunits)
    have hsplit : 2 ^ dataBufferChunkUnitsShift = 2 ^ (dataBufferChunkUnitsShift - h) * 2 ^ h := by
      rw [← pow_add, Nat.sub_add_cancel hh]
    have hlt : m + 1 ≤ 2 ^ (dataBufferChunkUnitsShift - h) := by
      rw [hsplit] at hunits
      exact Nat.le_of_mul_le_mul_right hunits (Nat.two_pow_pos h)
    refine ⟨h, 2 ^ (dataBufferChunkUnitsShift - h) + m, ⟨hh, ?_⟩, ?_⟩
    · rw [Nat.add_div_left _ (Nat.two_pow_pos _), Nat.div_eq_of_lt (by omega)]
    · have hptr := nodeBlock_ptr buf h (2 ^ (dataBufferChunkUnitsShift - h) + m)
      have hbase : (2 ^ (dataBufferChunkUnitsShift - h) + m) * 2 ^ h - dataBufferChunkUnits =
          m * 2 ^ h := by
        unfold dataBufferChunkUnits
        rw [Nat.add_mul, ← hsplit, Nat.add_sub_cancel_left]
      have hcomm : m * 2 ^ h * dataBufferUnitSize = 2 ^ h * dataBufferUnitSize * m := by
        rw [Nat.mul_assoc, Nat.mul_comm]
      rw [hbase, hcomm] at hptr
      have hptr' : ptr = (nodeBlock buf h (2 ^ (dataBufferChunkUnitsShift - h) + m)).ptr := by
        omega
      exact congrArg (ChunkBlock.mk · (h + 1)) hptr'
  · rintro ⟨h, pos, hn, rfl⟩
    obtain ⟨hlow, hhigh⟩ := hn.bounds
    have hptr := nodeBlock_ptr buf h pos
    have hsize := nodeBlock_size buf h pos
    refine ⟨Nat.succ_le_succ (Nat.zero_le h), by omega, ?_, ?_⟩
    · rw [hptr, hsize, Nat.add_sub_cancel_left]
      refine Nat.mul_dvd_mul_right (Nat.dvd_sub (Nat.dvd_mul_left _ _) ?_) _
      exact pow_dvd_pow 2 hn.1
    · rw [hptr, hsize, Nat.add_assoc, ← Nat.add_mul, dataBufferChunkSize_eq]
      exact Nat.add_le_add_left (Nat.mul_le_mul_right _ (by omega)) _

/-- The bytes of the block of a node are those of the units below it. -/
theorem mem_nodeBlock (hn : IsNode dataBufferChunkUnitsShift h pos) (a : ℕ) :
    ((nodeBlock buf h pos).ptr ≤ a ∧ a < (nodeBlock buf h pos).ptr + (nodeBlock buf h pos).size) ↔
      buf ≤ a ∧ ((a - buf) / dataBufferUnitSize + dataBufferChunkUnits) / 2 ^ h = pos := by
  have hunit : 0 < dataBufferUnitSize := Nat.two_pow_pos _
  obtain ⟨hlow, -⟩ := hn.bounds
  rw [nodeBlock_ptr, nodeBlock_size, Nat.add_assoc, ← Nat.add_mul]
  have hdiv : ∀ u, u / 2 ^ h = pos ↔ pos * 2 ^ h ≤ u ∧ u < pos * 2 ^ h + 2 ^ h := by
    intro u
    rw [← Nat.succ_mul, ← Nat.le_div_iff_mul_le (Nat.two_pow_pos h),
      ← Nat.div_lt_iff_lt_mul (Nat.two_pow_pos h)]
    omega
  rw [hdiv]
  have hbytes : ∀ n x, buf ≤ a → (buf + n * dataBufferUnitSize ≤ a ↔
      n ≤ (a - buf) / dataBufferUnitSize) ∧ (a < buf + x * dataBufferUnitSize ↔
      (a - buf) / dataBufferUnitSize < x) := by
    intro n x hle
    rw [Nat.le_div_iff_mul_le hunit, Nat.div_lt_iff_lt_mul hunit]
    omega
  constructor
  · rintro ⟨hstart, hend⟩
    have hle : buf ≤ a := (Nat.le_add_right _ _).trans hstart
    have hstart := (hbytes _ 0 hle).1.1 hstart
    have hend := (hbytes 0 _ hle).2.1 hend
    exact ⟨hle, by omega, by omega⟩
  · rintro ⟨hle, hstart, hend⟩
    exact ⟨(hbytes _ 0 hle).1.2 (by omega), (hbytes 0 _ hle).2.2 (by omega)⟩

/-- Two nodes of which none is above the other. -/
def Apart (h pos g q : ℕ) : Prop := ¬Under h pos q ∧ ¬Under g q pos

/-- The block of a node has a byte in common with the one of a node above it. -/
theorem not_disjoint_of_under (hn : IsNode dataBufferChunkUnitsShift h pos)
    (hq : IsNode dataBufferChunkUnitsShift g q) (hunder : Under h pos q) :
    ¬(nodeBlock buf h pos).Disjoint (nodeBlock buf g q) := by
  obtain ⟨d, -, rfl⟩ := hunder
  have hheight := hn.unique (hq.div (hq.le_of_div_ne_zero hn.ne_zero))
  obtain ⟨hlow, -⟩ := hq.bounds
  have hunit : ((buf + (q * 2 ^ g - dataBufferChunkUnits) * dataBufferUnitSize - buf) /
      dataBufferUnitSize + dataBufferChunkUnits) = q * 2 ^ g := by
    have hpos : 0 < dataBufferUnitSize := Nat.two_pow_pos _
    rw [Nat.add_sub_cancel_left, Nat.mul_div_cancel _ hpos, Nat.sub_add_cancel hlow]
  intro hdisjoint
  refine hdisjoint (buf + (q * 2 ^ g - dataBufferChunkUnits) * dataBufferUnitSize)
    ⟨(mem_nodeBlock hn _).2 ⟨Nat.le_add_right _ _, ?_⟩,
      (mem_nodeBlock hq _).2 ⟨Nat.le_add_right _ _, ?_⟩⟩
  · rw [hunit, hheight, pow_add, ← Nat.div_div_eq_div_mul, Nat.mul_div_cancel _ (Nat.two_pow_pos _)]
  · rw [hunit, Nat.mul_div_cancel _ (Nat.two_pow_pos _)]

theorem ChunkBlock.Disjoint.symm {b c : ChunkBlock} (hd : b.Disjoint c) : c.Disjoint b :=
  fun a ha => hd a ⟨ha.2, ha.1⟩

/-- The blocks of two nodes have a byte in common exactly if one is above the other. -/
theorem disjoint_iff (hn : IsNode dataBufferChunkUnitsShift h pos)
    (hq : IsNode dataBufferChunkUnitsShift g q) :
    (nodeBlock buf h pos).Disjoint (nodeBlock buf g q) ↔ Apart h pos g q := by
  constructor
  · intro hdisjoint
    exact ⟨fun hunder => not_disjoint_of_under hn hq hunder hdisjoint,
      fun hunder => not_disjoint_of_under hq hn hunder hdisjoint.symm⟩
  · rintro ⟨hbelow, habove⟩ a ⟨ha, ha'⟩
    obtain ⟨-, hpos⟩ := (mem_nodeBlock hn a).1 ha
    obtain ⟨-, hq'⟩ := (mem_nodeBlock hq a).1 ha'
    rcases Nat.le_total g h with hle | hle
    · refine hbelow ⟨h - g, Nat.sub_le _ _, ?_⟩
      rw [← hq', ← hpos, Nat.div_div_eq_div_mul, ← pow_add, Nat.add_sub_cancel' hle]
    · refine habove ⟨g - h, Nat.sub_le _ _, ?_⟩
      rw [← hq', ← hpos, Nat.div_div_eq_div_mul, ← pow_add, Nat.add_sub_cancel' hle]

end

end Libiscsi
