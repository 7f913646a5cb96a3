import Libiscsi.IserBuddy
import Mathlib.Data.Finset.Dedup
import Mathlib.Data.List.Pairwise
import Mathlib.Order.Bounds.Basic

/-!
# The allocator of the iSER chunks

In every run of `iser_buf_chunk_alloc` and `iser_buf_chunk_free` on one chunk, the live blocks are
those of nodes none of which is above another, and the tree has the values of its nodes for them
(`ChunkInv`). So (`iserBufChunk_correct`) the blocks are apart, a block is found if there is one,
and what is freed is found by its address.
-/

namespace Libiscsi

open Buddy

/-! ## The tree of a new chunk -/

/-- The levels that are written first. -/
theorem foldl_treeMemset (k : ℕ) (tree : ℕ → ℕ) {i pos : ℕ} (hlow : 2 ^ i ≤ pos)
    (hhigh : pos < 2 ^ (i + 1)) (n : ℕ) :
    (List.range n).foldl (fun tree i => treeMemset tree (1 <<< i) (k - i + 1) (1 <<< i)) tree pos =
      if i < n then k - i + 1 else tree pos := by
  induction n with
  | zero => rfl
  | succ n ih =>
    have hcover : (2 ^ n ≤ pos ∧ pos < 2 ^ n + 2 ^ n) ↔ n = i := by
      have hdouble : 2 ^ n + 2 ^ n = 2 ^ (n + 1) := by rw [pow_succ, Nat.mul_two]
      rw [hdouble]
      constructor
      · rintro ⟨hle, hlt⟩
        have hni := (Nat.pow_lt_pow_iff_right one_lt_two).1 (hle.trans_lt hhigh)
        have hin := (Nat.pow_lt_pow_iff_right one_lt_two).1 (hlow.trans_lt hlt)
        omega
      · rintro rfl
        exact ⟨hlow, hhigh⟩
    rw [List.range_succ, List.foldl_append, List.foldl_cons, List.foldl_nil]
    unfold treeMemset at ih ⊢
    simp only [Nat.one_shiftLeft] at ih ⊢
    rw [ih]
    simp only [hcover]
    by_cases hn : n = i
    · rw [if_pos hn, if_pos (by omega), hn]
    · rw [if_neg hn]
      by_cases hi : i < n
      · rw [if_pos hi, if_pos (by omega)]
      · rw [if_neg hi, if_neg (by omega)]

/-- The tree of a new chunk has the values of its nodes, of which none is live. -/
theorem agrees_init (tree : ℕ → ℕ) :
    Agrees dataBufferChunkUnitsShift (iserBufChunkInit tree) ∅ := by
  intro h pos hn
  obtain ⟨hle, hdiv⟩ := hn
  rw [Nat.div_eq_iff (Nat.two_pow_pos _)] at hdiv
  obtain ⟨hlow, hhigh⟩ := hdiv
  have hpos := Nat.two_pow_pos (dataBufferChunkUnitsShift - h)
  have hinit := @foldl_treeMemset dataBufferChunkUnitsShift tree
    (dataBufferChunkUnitsShift - h) pos (by omega) (by rw [pow_succ]; omega)
    (dataBufferChunkUnitsShift + 1)
  rw [if_pos (by omega), Nat.sub_sub_self hle] at hinit
  exact hinit.trans (value_eq_level_iff.2 fun _ _ => Finset.notMem_empty _).symm

/-! ## The level that is wanted -/

theorem fls_le_iff {x e : ℕ} : fls x ≤ e ↔ x < 2 ^ e := by
  unfold fls
  split
  · rename_i hx
    rw [hx]
    exact iff_of_true (Nat.zero_le e) (Nat.two_pow_pos e)
  · rename_i hx
    rw [Nat.succ_le_iff, Nat.log2_lt hx]

/-- The level that is wanted for a size is the least one whose blocks hold it. -/
theorem isLeast_iserWant {dataSize : ℕ} (hsize : 1 ≤ dataSize) :
    IsLeast {want | 1 ≤ want ∧ dataSize ≤ 2 ^ (want - 1) * dataBufferUnitSize}
      (iserWant dataSize) := by
  have hunit : 0 < dataBufferUnitSize := Nat.two_pow_pos _
  have hunits : (dataSize * 2 - 1) / dataBufferUnitSize / 2 =
      (dataSize - 1) / dataBufferUnitSize := by
    rw [Nat.div_div_eq_div_mul, Nat.mul_comm dataBufferUnitSize, ← Nat.div_div_eq_div_mul]
    congr 1
    omega
  have hholds : ∀ e, dataSize ≤ 2 ^ e * dataBufferUnitSize ↔
      fls ((dataSize - 1) / dataBufferUnitSize) ≤ e := by
    intro e
    rw [fls_le_iff, Nat.div_lt_iff_lt_mul hunit]
    omega
  unfold iserWant
  rw [hunits]
  refine ⟨⟨Nat.succ_le_succ (Nat.zero_le _), ?_⟩, fun want hwant => ?_⟩
  · rw [Nat.add_sub_cancel, hholds]
  · have hle := (hholds (want - 1)).1 hwant.2
    have hone := hwant.1
    omega

/-! ## Runs -/

/-- A run of the allocator on a chunk, with the blocks that are live. -/
inductive ChunkRun (tree : ℕ → ℕ) (buf : ℕ) : IserBufChunk → List ChunkBlock → Prop where
  | init : ChunkRun tree buf { buf, tree := iserBufChunkInit tree } []
  | alloc {chunk chunk' : IserBufChunk} {live : List ChunkBlock} {want ptr : ℕ} :
      ChunkRun tree buf chunk live → 1 ≤ want →
      iserBufChunkAlloc chunk want = some (ptr, chunk') →
      ChunkRun tree buf chunk' (⟨ptr, want⟩ :: live)
  | free {chunk chunk' : IserBufChunk} {pre post : List ChunkBlock} {b : ChunkBlock} :
      ChunkRun tree buf chunk (pre ++ b :: post) →
      iserBufChunkFree chunk b.ptr = some chunk' → ChunkRun tree buf chunk' (pre ++ post)

/-- The positions of nodes. -/
def positions (nodes : List (ℕ × ℕ)) : Finset ℕ := (nodes.map Prod.snd).toFinset

/-- The live blocks are those of nodes, none of which is above another, and the tree has the values
of its nodes for them. -/
structure ChunkInv (buf : ℕ) (chunk : IserBufChunk) (live : List ChunkBlock)
    (nodes : List (ℕ × ℕ)) : Prop where
  buf_eq : chunk.buf = buf
  live_eq : live = nodes.map fun n => nodeBlock buf n.1 n.2
  isNode : ∀ n ∈ nodes, IsNode dataBufferChunkUnitsShift n.1 n.2
  apart : nodes.Pairwise fun m n => Apart m.1 m.2 n.1 n.2
  agrees : Agrees dataBufferChunkUnitsShift chunk.tree (positions nodes)

theorem mem_positions {nodes : List (ℕ × ℕ)} {pos : ℕ} :
    pos ∈ positions nodes ↔ ∃ h, (h, pos) ∈ nodes := by
  unfold positions
  rw [List.mem_toFinset, List.mem_map]
  constructor
  · rintro ⟨⟨h, _⟩, hmem, rfl⟩
    exact ⟨h, hmem⟩
  · rintro ⟨h, hmem⟩
    exact ⟨(h, pos), hmem, rfl⟩

namespace ChunkInv
variable {buf : ℕ} {chunk : IserBufChunk} {live : List ChunkBlock} {nodes : List (ℕ × ℕ)}

theorem root : IsNode dataBufferChunkUnitsShift dataBufferChunkUnitsShift 1 :=
  ⟨le_rfl, by rw [Nat.sub_self, pow_zero, Nat.div_one]⟩

theorem init (tree : ℕ → ℕ) (buf : ℕ) :
    ChunkInv buf { buf, tree := iserBufChunkInit tree } [] [] :=
  ⟨rfl, rfl, List.forall_mem_nil _, .nil, agrees_init tree⟩

/-- Two nodes of which none is above the other are not the same. -/
theorem apart_of_ne (hi : ChunkInv buf chunk live nodes) {m n : ℕ × ℕ} (hm : m ∈ nodes)
    (hn : n ∈ nodes) (hne : m ≠ n) : Apart m.1 m.2 n.1 n.2 := by
  have _ : Std.Symm fun m n : ℕ × ℕ => Apart m.1 m.2 n.1 n.2 := ⟨fun _ _ hmn => ⟨hmn.2, hmn.1⟩⟩
  exact hi.apart.forall hm hn hne

/-- A node is free if it is apart from those that are live, where none is above. -/
theorem freeIn_iff (hi : ChunkInv buf chunk live nodes) {g i h pos : ℕ}
    (hn : IsNode dataBufferChunkUnitsShift h pos)
    (habove : ∀ d, d ≠ 0 → i / 2 ^ d ∉ positions nodes) :
    FreeIn (positions nodes) g i h pos ↔
      (∃ d, h + d = g ∧ pos / 2 ^ d = i) ∧ ∀ n ∈ nodes, Apart h pos n.1 n.2 := by
  constructor
  · rintro ⟨d, hd, hpos, hbelow, hpath⟩
    refine ⟨⟨d, hd, hpos⟩, fun n hmem => ⟨fun hunder => ?_, fun hunder => ?_⟩⟩
    · exact hbelow n.2 hunder (mem_positions.2 ⟨n.1, hmem⟩)
    · obtain ⟨e, -, he⟩ := hunder
      have hlive : pos / 2 ^ e ∈ positions nodes := he ▸ mem_positions.2 ⟨n.1, hmem⟩
      by_cases hle : e ≤ d
      · exact hpath e hle hlive
      · refine habove (e - d) (by omega) ?_
        rw [← hpos, Nat.div_div_eq_div_mul, ← pow_add, Nat.add_sub_cancel' (by omega)]
        exact hlive
  · rintro ⟨⟨d, hd, hpos⟩, hapart⟩
    refine ⟨d, hd, hpos, fun q hunder hlive => ?_, fun e he hlive => ?_⟩
    · obtain ⟨g', hmem⟩ := mem_positions.1 hlive
      exact (hapart _ hmem).1 hunder
    · obtain ⟨g', hmem⟩ := mem_positions.1 hlive
      have hnode := hi.isNode _ hmem
      have hheight := hnode.unique (hn.div (hn.le_of_div_ne_zero hnode.ne_zero))
      exact (hapart _ hmem).2 ⟨e, by omega, rfl⟩

/-- What a live node has below it and above it. -/
theorem alone (hi : ChunkInv buf chunk live nodes) {h pos : ℕ} (hmem : (h, pos) ∈ nodes) :
    (∀ q, Under h pos q → q ∈ positions nodes → q = pos) ∧
      ∀ d, d ≠ 0 → h + d ≤ dataBufferChunkUnitsShift → pos / 2 ^ d ∉ positions nodes := by
  constructor
  · intro q hunder hlive
    obtain ⟨g, hg⟩ := mem_positions.1 hlive
    by_contra hne
    exact (hi.apart_of_ne hmem hg fun heq => hne (congrArg Prod.snd heq).symm).1 hunder
  · intro d hd hle hlive
    obtain ⟨g, hg⟩ := mem_positions.1 hlive
    have hheight := (hi.isNode _ hg).unique ((hi.isNode _ hmem).div hle)
    simp only at hheight
    have hne : (g, pos / 2 ^ d) ≠ (h, pos) := fun heq => by
      have := congrArg Prod.fst heq
      simp only at this
      omega
    exact (hi.apart_of_ne hg hmem hne).1 ⟨d, by omega, rfl⟩

/-- A level that the root does not have is refused; else the block of a free node is returned, which
is live then. -/
theorem alloc (hi : ChunkInv buf chunk live nodes) (want : ℕ) :
    (iserBufChunkAlloc chunk (want + 1) = none ∧
      ¬want < value (positions nodes) dataBufferChunkUnitsShift 1) ∨
    ∃ pos chunk', iserBufChunkAlloc chunk (want + 1) =
        some ((nodeBlock buf want pos).ptr, chunk') ∧
      want < value (positions nodes) dataBufferChunkUnitsShift 1 ∧
      ChunkInv buf chunk' (nodeBlock buf want pos :: live) ((want, pos) :: nodes) := by
  have hroot := hi.agrees _ _ root
  unfold iserBufChunkAlloc
  by_cases hwant : chunk.tree 1 < want + 1
  · exact .inl ⟨if_pos hwant, by omega⟩
  right
  rw [if_neg hwant]
  have hvalue : want < value (positions nodes) dataBufferChunkUnitsShift 1 := by omega
  have hle := @value_le (positions nodes) dataBufferChunkUnitsShift 1
  obtain ⟨pos, hpos, hfree⟩ := allocNode_spec hi.agrees root (by omega) hvalue
  have hnode : IsNode dataBufferChunkUnitsShift want pos := by
    obtain ⟨d, hd, hdiv, -, -⟩ := hfree
    refine ⟨by omega, ?_⟩
    rw [← hd, Nat.add_sub_cancel_left]
    exact hdiv
  have habove : ∀ d, d ≠ 0 → 1 / 2 ^ d ∉ positions nodes := by
    intro d hd hlive
    obtain ⟨g, hg⟩ := mem_positions.1 hlive
    refine (hi.isNode _ hg).ne_zero (Nat.div_eq_of_lt ?_)
    exact Nat.one_lt_two_pow hd
  rw [hpos]
  refine ⟨pos, { chunk with
      tree := iserBufChunkTreePropagate (Function.update chunk.tree pos 0) pos (want + 1) },
    ?_, hvalue, ⟨hi.buf_eq, ?_, ?_, ?_, ?_⟩⟩
  · rw [← hi.buf_eq]
    rfl
  · rw [List.map_cons, hi.live_eq]
  · exact List.forall_mem_cons.2 ⟨hnode, hi.isNode⟩
  · exact List.pairwise_cons.2 ⟨((hi.freeIn_iff hnode habove).1 hfree).2, hi.apart⟩
  · unfold positions
    rw [List.map_cons, List.toFinset_cons]
    exact hi.agrees.alloc hnode hfree

/-- The node of a live block is found from its address. -/
theorem freeNode_ptr (hi : ChunkInv buf chunk live nodes) {h pos : ℕ} (hmem : (h, pos) ∈ nodes) :
    freeNode chunk.tree ((((nodeBlock buf h pos).ptr - chunk.buf) >>> dataBufferUnitShift) +
      dataBufferChunkUnits) 1 = some (pos, h + 1) := by
  have hn := hi.isNode _ hmem
  obtain ⟨hlow, -⟩ := hn.bounds
  have hunit : 0 < dataBufferUnitSize := Nat.two_pow_pos _
  have hleaf : (((nodeBlock buf h pos).ptr - chunk.buf) >>> dataBufferUnitShift) +
      dataBufferChunkUnits = pos * 2 ^ h := by
    rw [nodeBlock_ptr, hi.buf_eq, Nat.add_sub_cancel_left, Nat.shiftRight_eq_div_pow]
    rw [show 2 ^ dataBufferUnitShift = dataBufferUnitSize from rfl, Nat.mul_div_cancel _ hunit,
      Nat.sub_add_cancel hlow]
  have hfound := freeNode_eq hi.agrees hn (mem_positions.2 ⟨h, hmem⟩) (hi.alone hmem).1 le_rfl
  rw [Nat.sub_self] at hfound
  rw [hleaf]
  exact hfound

/-- A live block is freed. -/
theorem free {pre post : List (ℕ × ℕ)} {h pos : ℕ}
    (hi : ChunkInv buf chunk live (pre ++ (h, pos) :: post)) :
    ∃ chunk', iserBufChunkFree chunk (nodeBlock buf h pos).ptr = some chunk' ∧
      ChunkInv buf chunk' ((pre ++ post).map fun n => nodeBlock buf n.1 n.2) (pre ++ post) := by
  have hmem : (h, pos) ∈ pre ++ (h, pos) :: post :=
    List.mem_append_right _ List.mem_cons_self
  have hsub : (pre ++ post).Sublist (pre ++ (h, pos) :: post) :=
    List.Sublist.append_left (List.sublist_cons_self _ _) pre
  refine ⟨{ chunk with
      tree := iserBufChunkTreePropagate (Function.update chunk.tree pos (h + 1)) pos (h + 1) },
    ?_, ⟨hi.buf_eq, rfl, fun n hn => hi.isNode n (hsub.subset hn), hi.apart.sublist hsub, ?_⟩⟩
  · unfold iserBufChunkFree
    simp only [hi.freeNode_ptr hmem]
    rfl
  · have hpositions : positions (pre ++ post) =
        (positions (pre ++ (h, pos) :: post)).erase pos := by
      ext q
      rw [Finset.mem_erase, mem_positions, mem_positions]
      constructor
      · rintro ⟨g, hg⟩
        refine ⟨?_, g, hsub.subset hg⟩
        rintro rfl
        -- The node stands in the list once, and no other one has its position.
        have hself := hi.apart
        rw [List.pairwise_append, List.pairwise_cons] at hself
        obtain ⟨-, ⟨hpost, -⟩, hpre⟩ := hself
        rcases List.mem_append.1 hg with hg | hg
        · exact (hpre _ hg _ List.mem_cons_self).1 (under_self _ _)
        · exact (hpost _ hg).1 (under_self _ _)
      · rintro ⟨hne, g, hg⟩
        refine ⟨g, ?_⟩
        rcases List.mem_append.1 hg with hg | hg
        · exact List.mem_append_left _ hg
        · rcases List.mem_cons.1 hg with heq | hg
          · exact absurd (congrArg Prod.snd heq) hne
          · exact List.mem_append_right _ hg
    rw [hpositions]
    exact hi.agrees.free (hi.isNode _ hmem) (hi.alone hmem).1 (hi.alone hmem).2

end ChunkInv

/-- **The invariant holds in every run.** -/
theorem ChunkRun.inv {tree : ℕ → ℕ} {buf : ℕ} {chunk : IserBufChunk} {live : List ChunkBlock}
    (hrun : ChunkRun tree buf chunk live) : ∃ nodes, ChunkInv buf chunk live nodes := by
  induction hrun with
  | init => exact ⟨[], ChunkInv.init tree buf⟩
  | @alloc chunk chunk' live want ptr _ hwant halloc ih =>
    obtain ⟨nodes, hi⟩ := ih
    obtain ⟨want, rfl⟩ : ∃ n, want = n + 1 := ⟨want - 1, by omega⟩
    obtain ⟨hnone, -⟩ | ⟨pos, chunk'', hsome, -, hinv⟩ := hi.alloc want
    · rw [hnone] at halloc
      cases halloc
    · rw [hsome] at halloc
      obtain ⟨rfl, rfl⟩ := Prod.mk.inj (Option.some.inj halloc)
      exact ⟨_, hinv⟩
  | @free chunk chunk' pre post b _ hfree ih =>
    obtain ⟨nodes, hi⟩ := ih
    obtain ⟨npre, nrest, rfl, hpre, hrest⟩ := List.map_eq_append_iff.1 hi.live_eq.symm
    obtain ⟨⟨h, pos⟩, npost, rfl, hb, hpost⟩ := List.map_eq_cons_iff.1 hrest
    obtain ⟨chunk'', hsome, hinv⟩ := hi.free
    rw [← hb] at hfree
    obtain rfl := Option.some.inj (hsome.symm.trans hfree)
    rw [List.map_append, hpre, hpost] at hinv
    exact ⟨_, hinv⟩

/-! ## What the allocator does -/

/-- A block has no byte in common with those that are live. -/
def ChunkBlock.Free (live : List ChunkBlock) (b : ChunkBlock) : Prop := ∀ c ∈ live, b.Disjoint c

/-- The level of a node is that of the largest block in its subtree that is completely free. -/
def TreeLaw (buf : ℕ) (chunk : IserBufChunk) (live : List ChunkBlock) (g i : ℕ) : Prop :=
  ∀ want, 1 ≤ want → (want ≤ chunk.tree i ↔
    ∃ d pos, want - 1 + d = g ∧ pos / 2 ^ d = i ∧ (nodeBlock buf (want - 1) pos).Free live)

/-- What holds of a chunk and the blocks that are live. -/
structure ChunkCorrect (tree : ℕ → ℕ) (buf : ℕ) (chunk : IserBufChunk) (live : List ChunkBlock) :
    Prop where
  disjoint : live.Pairwise ChunkBlock.Disjoint
  inChunk : ∀ b ∈ live, b.InChunk buf
  tree_law : ∀ g i, IsNode dataBufferChunkUnitsShift g i →
    (∀ h pos, IsNode dataBufferChunkUnitsShift h pos → nodeBlock buf h pos ∈ live →
      ∀ d ≠ 0, i / 2 ^ d ≠ pos) → TreeLaw buf chunk live g i
  alloc : ∀ want, 1 ≤ want → (iserBufChunkAlloc chunk want = none ↔
    ¬∃ b : ChunkBlock, b.want = want ∧ b.InChunk buf ∧ b.Free live)
  free : ∀ b ∈ live, (∃ pos, freeNode chunk.tree
      (((b.ptr - chunk.buf) >>> dataBufferUnitShift) + dataBufferChunkUnits) 1 =
        some (pos, b.want)) ∧ ∃ chunk', iserBufChunkFree chunk b.ptr = some chunk'
  empty : live = [] → ∀ g i, IsNode dataBufferChunkUnitsShift g i →
    chunk.tree i = iserBufChunkInit tree i

namespace ChunkInv
variable {buf : ℕ} {chunk : IserBufChunk} {live : List ChunkBlock} {nodes : List (ℕ × ℕ)}

/-- The block of a node is free exactly if the node is apart from those that are live. -/
theorem free_iff (hi : ChunkInv buf chunk live nodes) {h pos : ℕ}
    (hn : IsNode dataBufferChunkUnitsShift h pos) :
    (nodeBlock buf h pos).Free live ↔ ∀ n ∈ nodes, Apart h pos n.1 n.2 := by
  unfold ChunkBlock.Free
  rw [hi.live_eq, List.forall_mem_map]
  exact forall₂_congr fun n hmem => disjoint_iff hn (hi.isNode n hmem)

/-- A level of a node stands for a free block below it, where no live node is above it. -/
theorem lt_value_iff_free (hi : ChunkInv buf chunk live nodes) {g i want : ℕ}
    (hn : IsNode dataBufferChunkUnitsShift g i)
    (habove : ∀ d, d ≠ 0 → i / 2 ^ d ∉ positions nodes) :
    want < value (positions nodes) g i ↔
      ∃ d pos, want + d = g ∧ pos / 2 ^ d = i ∧ (nodeBlock buf want pos).Free live := by
  have hnode : ∀ {d pos}, want + d = g → pos / 2 ^ d = i →
      IsNode dataBufferChunkUnitsShift want pos := by
    intro d pos hd hpos
    obtain ⟨hle, hdiv⟩ := hn
    refine ⟨by omega, ?_⟩
    rw [← hdiv, ← hpos, Nat.div_div_eq_div_mul, ← pow_add]
    congr 2
    omega
  rw [lt_value_iff]
  constructor
  · rintro ⟨pos, hfree⟩
    obtain ⟨d, hd, hpos, -⟩ := id hfree
    have hpos' := hnode hd hpos
    exact ⟨d, pos, hd, hpos, (hi.free_iff hpos').2 ((hi.freeIn_iff hpos' habove).1 hfree).2⟩
  · rintro ⟨d, pos, hd, hpos, hfree⟩
    have hpos' := hnode hd hpos
    exact ⟨pos, (hi.freeIn_iff hpos' habove).2 ⟨⟨d, hd, hpos⟩, (hi.free_iff hpos').1 hfree⟩⟩

/-- No node is above the root. -/
theorem root_above (hi : ChunkInv buf chunk live nodes) (d : ℕ) (hd : d ≠ 0) :
    1 / 2 ^ d ∉ positions nodes := by
  intro hlive
  obtain ⟨g, hg⟩ := mem_positions.1 hlive
  exact (hi.isNode _ hg).ne_zero (Nat.div_eq_of_lt (Nat.one_lt_two_pow hd))

theorem correct (tree : ℕ → ℕ) (hi : ChunkInv buf chunk live nodes) :
    ChunkCorrect tree buf chunk live where
  disjoint := by
    rw [hi.live_eq, List.pairwise_map]
    refine hi.apart.imp_of_mem fun hm hn hapart => ?_
    exact (disjoint_iff (hi.isNode _ hm) (hi.isNode _ hn)).2 hapart
  inChunk := by
    intro b hb
    rw [hi.live_eq] at hb
    obtain ⟨n, hn, rfl⟩ := List.mem_map.1 hb
    exact inChunk_iff.2 ⟨n.1, n.2, hi.isNode n hn, rfl⟩
  tree_law := by
    intro g i hnode hinside want hwant
    have habove : ∀ d, d ≠ 0 → i / 2 ^ d ∉ positions nodes := by
      intro d hd hlive
      obtain ⟨h, hmem⟩ := mem_positions.1 hlive
      refine hinside h _ (hi.isNode _ hmem) ?_ d hd rfl
      rw [hi.live_eq]
      exact List.mem_map.2 ⟨_, hmem, rfl⟩
    rw [hi.agrees g i hnode, ← hi.lt_value_iff_free hnode habove]
    omega
  alloc := by
    intro want hwant
    obtain ⟨want, rfl⟩ : ∃ n, want = n + 1 := ⟨want - 1, by omega⟩
    have hvalue : want < value (positions nodes) dataBufferChunkUnitsShift 1 ↔
        ∃ b : ChunkBlock, b.want = want + 1 ∧ b.InChunk buf ∧ b.Free live := by
      rw [hi.lt_value_iff_free root hi.root_above]
      constructor
      · rintro ⟨d, pos, hd, hpos, hfree⟩
        refine ⟨_, rfl, inChunk_iff.2 ⟨want, pos, ⟨by omega, ?_⟩, rfl⟩, hfree⟩
        rw [← hd, Nat.add_sub_cancel_left]
        exact hpos
      · rintro ⟨b, hb, hin, hfree⟩
        obtain ⟨h, pos, ⟨hle, hdiv⟩, rfl⟩ := inChunk_iff.1 hin
        obtain rfl : h = want := Nat.succ.inj hb
        exact ⟨_, pos, Nat.add_sub_cancel' hle, hdiv, hfree⟩
    rw [← hvalue]
    obtain ⟨hnone, hnot⟩ | ⟨pos, chunk', hsome, hlt, -⟩ := hi.alloc want
    · exact iff_of_true hnone hnot
    · refine iff_of_false (fun hnone => ?_) (not_not.2 hlt)
      rw [hsome] at hnone
      exact Option.some_ne_none _ hnone
  free := by
    intro b hb
    rw [hi.live_eq] at hb
    obtain ⟨⟨h, pos⟩, hmem, rfl⟩ := List.mem_map.1 hb
    refine ⟨⟨pos, hi.freeNode_ptr hmem⟩, ?_⟩
    obtain ⟨pre, post, rfl⟩ := List.append_of_mem hmem
    obtain ⟨chunk', hfree, -⟩ := hi.free
    exact ⟨chunk', hfree⟩
  empty := by
    intro hempty g i hnode
    have hnil : nodes = [] := List.map_eq_nil_iff.1 (hi.live_eq.symm.trans hempty)
    have hagrees := hi.agrees g i hnode
    rw [hnil] at hagrees
    exact hagrees.trans (agrees_init tree g i hnode).symm

end ChunkInv

/-- **The allocator of the chunks is a buddy allocator, and the level that is wanted for a size is
the least one whose blocks hold it.** -/
theorem iserBufChunk_correct (tree : ℕ → ℕ) (buf : ℕ) :
    (∀ chunk live, ChunkRun tree buf chunk live → ChunkCorrect tree buf chunk live) ∧
      ∀ dataSize, 1 ≤ dataSize → dataSize ≤ dataBufferChunkSize →
        IsLeast {want | 1 ≤ want ∧ dataSize ≤ 2 ^ (want - 1) * dataBufferUnitSize}
          (iserWant dataSize) := by
  refine ⟨fun chunk live hrun => ?_, fun dataSize hsize _ => isLeast_iserWant hsize⟩
  obtain ⟨nodes, hi⟩ := hrun.inv
  exact hi.correct tree

/-- A new chunk, and the size of one unit. -/
theorem iserBufChunk_correct_new :
    ChunkCorrect (fun _ => 0) 0 { buf := 0, tree := iserBufChunkInit fun _ => 0 } [] ∧
      IsLeast {want | 1 ≤ want ∧ 4096 ≤ 2 ^ (want - 1) * dataBufferUnitSize} (iserWant 4096) :=
  ⟨(iserBufChunk_correct (fun _ => 0) 0).1 _ _ .init,
    (iserBufChunk_correct (fun _ => 0) 0).2 4096 (by decide) (by decide)⟩

/-- Below a block that is allocated, the levels are those of free blocks: here the whole chunk is
allocated. -/
theorem treeLaw_notBelow : ¬∀ (tree : ℕ → ℕ) (buf : ℕ) (chunk : IserBufChunk)
    (live : List ChunkBlock), ChunkRun tree buf chunk live →
      ∀ g i, IsNode dataBufferChunkUnitsShift g i → TreeLaw buf chunk live g i := by
  intro h
  have hroot : iserBufChunkInit (fun _ => 0) 1 = 11 :=
    agrees_init _ dataBufferChunkUnitsShift 1 ChunkInv.root
  have hchild : iserBufChunkInit (fun _ => 0) 2 = 10 :=
    agrees_init _ 9 2 ⟨by decide, by decide⟩
  have halloc : iserBufChunkAlloc { buf := 0, tree := iserBufChunkInit fun _ => 0 } 11 =
      some (0, { buf := 0, tree := Function.update (iserBufChunkInit fun _ => 0) 1 0 }) := by
    have hdone := propagate_eq (Function.update (iserBufChunkInit fun _ => 0) 1 0) 1 11
    rw [if_pos rfl] at hdone
    unfold iserBufChunkAlloc
    simp only [hroot]
    refine (if_neg (lt_irrefl 11)).trans ?_
    exact congrArg (fun tree => some (0, (⟨0, tree⟩ : IserBufChunk))) hdone
  have hlaw := h _ _ _ _ (.alloc .init (by decide) halloc) 9 2 ⟨by decide, by decide⟩ 10 (by decide)
  obtain ⟨d, pos, hd, hpos, hfree⟩ := hlaw.1 (by
    simp only
    rw [Function.update_of_ne (by decide), hchild])
  obtain rfl : d = 0 := by omega
  rw [pow_zero, Nat.div_one] at hpos
  subst hpos
  exact hfree _ List.mem_cons_self 0 (by decide)

end Libiscsi
