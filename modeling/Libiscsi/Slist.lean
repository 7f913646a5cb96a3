import Libiscsi.Lib.LinkedList
import Libiscsi.QueueSpec

/-!
# The lists of PDUs as they are linked

`include/slist.h` and the insertion of `iscsi_add_to_outqueue`: the queues of a context, and the
lists that functions collect PDUs in, are chained through the one field `next` of a PDU. The models
of the other modules have lists of addresses in their place. Here the macros work on the chains, and
every sequence of them on any number of lists does to the chains what it does to the lists
(`runListOps_refines`).
-/

namespace Libiscsi

open LinkedList

variable {ι : Type} [DecidableEq ι]

/-! ## The macros -/

/-- The heads of the lists, and `next` of the items. -/
structure Chains (ι : Type) where
  head : ι → Option Addr
  next : Addr → Option Addr

namespace Chains
variable (s : Chains ι) (i : ι) (item : Addr)

/-- `ISCSI_LIST_ADD`. -/
def listAdd : Chains ι where
  head := Function.update s.head i (some item)
  next := Function.update s.next item (s.head i)

/-- The loop of a macro that moves `*list` forward; the number bounds its turns. -/
def walkFrom (fuel : Nat) (stop : Addr → Bool) (first : Addr) : Res Addr :=
  match walk s.next stop fuel first with
  | some p => .ok p
  | none => .error .diverges

/-- `ISCSI_LIST_ADD_END`. The macro moves `*list` to the last item and restores it. -/
def listAddEnd (fuel : Nat) : Res (Chains ι) :=
  match s.head i with
  | none => .ok (s.listAdd i item)
  | some first => do
    let p ← s.walkFrom fuel (fun _ => false) first
    .ok { s with next := Function.update (Function.update s.next p (some item)) item none }

/-- `ISCSI_LIST_REMOVE`. -/
def listRemove (fuel : Nat) : Res (Chains ι) :=
  if s.head i = some item then .ok { s with head := Function.update s.head i (s.next item) }
  else
    match s.head i with
    | none => .error .nullDeref
    | some first => do
      let p ← s.walkFrom fuel (fun b => s.next b = some item) first
      match s.next p with
      | none => .ok s
      | some q => .ok { s with next := Function.update s.next p (s.next q) }

/-- The second loop of `iscsi_add_to_outqueue`, which inserts a PDU before the first one at which it
is to stop. -/
def listInsert (stop : Addr → Bool) (fuel : Nat) : Res (Chains ι) :=
  match s.head i with
  | none => .ok (s.listAdd i item)
  | some first =>
    match place s.next stop fuel none first with
    | none => .error .diverges
    | some (none, current) => .ok {
        head := Function.update s.head i (some item)
        next := Function.update s.next item current }
    | some (some last, current) => .ok { s with
        next := Function.update (Function.update s.next last (some item)) item current }

end Chains

/-! ## Chains stand for lists -/

/-- The chains are those of the lists, and no item is in two of them. -/
structure Chains.Represents (s : Chains ι) (lists : ι → List Addr) : Prop where
  linked : ∀ i, Linked s.next (s.head i) (lists i)
  disjoint : ∀ i j, i ≠ j → ∀ a ∈ lists i, a ∉ lists j

namespace Chains.Represents
variable {s : Chains ι} {lists : ι → List Addr} {i : ι} {item : Addr}

omit [DecidableEq ι] in
/-- Empty lists, whatever the links. -/
theorem empty (next : Addr → Option Addr) :
    Represents (⟨fun _ => none, next⟩ : Chains ι) fun _ => [] :=
  ⟨fun _ => rfl, fun _ _ _ _ ha => (by cases ha)⟩

/-- One list is changed, and the links of the other items are not. -/
theorem change (h : s.Represents lists) {s' : Chains ι} {l : List Addr}
    (hlinked : Linked s'.next (s'.head i) l) (hhead : ∀ j, j ≠ i → s'.head j = s.head j)
    (hnew : ∀ a ∈ l, a ∈ lists i ∨ ∀ j, a ∉ lists j)
    (hnext : ∀ j, j ≠ i → ∀ a ∈ lists j, s'.next a = s.next a) :
    s'.Represents (Function.update lists i l) := by
  constructor
  · intro j
    by_cases hj : j = i
    · subst hj
      rw [Function.update_self]
      exact hlinked
    · rw [Function.update_of_ne hj, hhead j hj]
      exact (h.linked j).congr (hnext j hj)
  · intro j k hne a ha
    by_cases hj : j = i
    · subst hj
      rw [Function.update_self] at ha
      rw [Function.update_of_ne hne.symm]
      rcases hnew a ha with hold | hnone
      · exact h.disjoint j k hne a hold
      · exact hnone k
    · rw [Function.update_of_ne hj] at ha
      by_cases hk : k = i
      · subst hk
        rw [Function.update_self]
        intro hmem
        rcases hnew a hmem with hold | hnone
        · exact h.disjoint j k hne a ha hold
        · exact hnone j ha
      · rw [Function.update_of_ne hk]
        exact h.disjoint j k hne a ha

/-- An item of no list is added in front. -/
theorem listAdd (h : s.Represents lists) (hitem : ∀ j, item ∉ lists j) :
    (s.listAdd i item).Represents (Function.update lists i (item :: lists i)) := by
  refine h.change ?_ (fun j hj => Function.update_of_ne hj _ _) ?_ fun j _ a ha => ?_
  · change Linked (Function.update s.next item (s.head i))
      (Function.update s.head i (some item) i) (item :: lists i)
    rw [Function.update_self]
    exact (h.linked i).cons (hitem i)
  · intro a ha
    rcases List.mem_cons.1 ha with rfl | ha
    · exact .inr hitem
    · exact .inl ha
  · exact Function.update_of_ne (ne_of_mem_of_not_mem ha (hitem j)) _ _

/-- An item of no list is linked in behind an item of the list. -/
theorem insert (h : s.Represents lists) (hitem : ∀ j, item ∉ lists j) {l₁ l₂ : List Addr}
    {b : Addr} (hsplit : lists i = l₁ ++ b :: l₂) :
    Represents { s with
      next := Function.update (Function.update s.next b (some item)) item (s.next b) }
      (Function.update lists i (l₁ ++ b :: item :: l₂)) := by
  have hlinked := h.linked i
  have hnew := hitem i
  rw [hsplit] at hlinked hnew
  refine h.change (hlinked.insert hnew) (fun _ _ => rfl) ?_ fun j hj a ha => ?_
  · intro a ha
    rw [hsplit]
    rcases List.mem_append.1 ha with ha | ha
    · exact .inl (List.mem_append_left _ ha)
    · rcases List.mem_cons.1 ha with rfl | ha
      · exact .inl (List.mem_append_right _ List.mem_cons_self)
      · rcases List.mem_cons.1 ha with rfl | ha
        · exact .inr hitem
        · exact .inl (List.mem_append_right _ (List.mem_cons_of_mem _ ha))
  · have hb : b ∈ lists i := hsplit ▸ List.mem_append_right _ List.mem_cons_self
    have hab : a ≠ b := fun heq => h.disjoint j i hj a ha (heq ▸ hb)
    change Function.update (Function.update s.next b (some item)) item (s.next b) a = _
    rw [Function.update_of_ne (ne_of_mem_of_not_mem ha (hitem j)), Function.update_of_ne hab]

/-- The item behind an item of the list is taken out. -/
theorem unlink (h : s.Represents lists) {l₁ l₂ : List Addr} {b : Addr}
    (hsplit : lists i = l₁ ++ b :: item :: l₂) :
    Represents { s with next := Function.update s.next b (s.next item) }
      (Function.update lists i (l₁ ++ b :: l₂)) := by
  have hlinked := h.linked i
  rw [hsplit] at hlinked
  refine h.change hlinked.remove (fun _ _ => rfl) (fun a ha => .inl ?_) fun j hj a ha => ?_
  · rw [hsplit]
    rcases List.mem_append.1 ha with ha | ha
    · exact List.mem_append_left _ ha
    · rcases List.mem_cons.1 ha with rfl | ha
      · exact List.mem_append_right _ List.mem_cons_self
      · exact List.mem_append_right _ (List.mem_cons_of_mem _ (List.mem_cons_of_mem _ ha))
  · have hb : b ∈ lists i := hsplit ▸ List.mem_append_right _ List.mem_cons_self
    have hab : a ≠ b := fun heq => h.disjoint j i hj a ha (heq ▸ hb)
    exact Function.update_of_ne hab _ _

/-- **`ISCSI_LIST_ADD_END`.** -/
theorem listAddEnd (h : s.Represents lists) (hitem : ∀ j, item ∉ lists j) {fuel : Nat}
    (hfuel : (lists i).length ≤ fuel) : ∃ s', s.listAddEnd i item fuel = .ok s' ∧
      s'.Represents (Function.update lists i (lists i ++ [item])) := by
  have hlinked := h.linked i
  unfold Chains.listAddEnd
  cases hhead : s.head i with
  | none =>
    rw [hhead] at hlinked
    have hnil : lists i = [] := by
      have hempty : Linked s.next none [] := rfl
      exact hlinked.unique hempty
    have hadd := h.listAdd (i := i) hitem
    rw [hnil] at hadd ⊢
    exact ⟨_, rfl, hadd⟩
  | some first =>
    rw [hhead] at hlinked
    obtain ⟨l₁, b, l₂, hsplit, -, hend, hwalk⟩ := walk_spec (fun _ => false) hlinked hfuel
    obtain rfl := hend.resolve_right Bool.false_ne_true
    unfold Chains.walkFrom
    simp only [hwalk, Outcome.ok_bind]
    refine ⟨_, rfl, ?_⟩
    have hinsert := h.insert hitem hsplit
    have hnext : s.next b = none := by
      rw [hsplit] at hlinked
      obtain ⟨u, -, -, hu⟩ := path_append.1 hlinked
      exact hu
    rw [hnext] at hinsert
    rw [hsplit, List.append_assoc]
    exact hinsert

/-- **`ISCSI_LIST_REMOVE`**, from a list that is not empty. -/
theorem listRemove (h : s.Represents lists) (hne : lists i ≠ []) {fuel : Nat}
    (hfuel : (lists i).length ≤ fuel) : ∃ s', s.listRemove i item fuel = .ok s' ∧
      s'.Represents (Function.update lists i ((lists i).erase item)) := by
  have hlinked := h.linked i
  have hnodup := hlinked.nodup
  unfold Chains.listRemove
  by_cases hfirst : s.head i = some item
  · rw [if_pos hfirst]
    refine ⟨_, rfl, ?_⟩
    rw [hfirst] at hlinked
    obtain ⟨a, l, hsplit⟩ := List.exists_cons_of_ne_nil hne
    rw [hsplit] at hlinked
    obtain ⟨heq, hrest⟩ := hlinked
    obtain rfl := Option.some.inj heq
    rw [hsplit, List.erase_cons_head]
    refine h.change ?_ (fun j hj => Function.update_of_ne hj _ _) (fun a ha => .inl ?_)
      fun _ _ _ _ => rfl
    · change Linked s.next (Function.update s.head i (s.next item) i) l
      rw [Function.update_self]
      exact hrest
    · rw [hsplit]
      exact List.mem_cons_of_mem _ ha
  rw [if_neg hfirst]
  cases hhead : s.head i with
  | none =>
    rw [hhead] at hlinked
    have hempty : Linked s.next none [] := rfl
    exact absurd (hlinked.unique hempty) hne
  | some first =>
    rw [hhead] at hlinked hfirst
    obtain ⟨l₁, b, l₂, hsplit, hbefore, hend, hwalk⟩ :=
      walk_spec (fun b => decide (s.next b = some item)) hlinked hfuel
    unfold Chains.walkFrom
    simp only [hwalk, Outcome.ok_bind]
    rw [hsplit] at hlinked hnodup
    obtain ⟨u, hpath, hu⟩ := path_append.1 hlinked
    obtain ⟨rfl, hrest⟩ := hu
    rw [hrest.head_eq]
    cases l₂ with
    | nil =>
      refine ⟨s, rfl, ?_⟩
      have hmissing : item ∉ l₁ ++ [b] := by
        refine hlinked.notMem (fun heq => hfirst (congrArg some heq)) fun d hd => ?_
        exact of_decide_eq_false (hbefore d hd)
      rw [hsplit, List.erase_of_not_mem hmissing, ← hsplit, Function.update_eq_self]
      exact h
    | cons c l₂ =>
      have hnext : s.next b = some c := hrest.head_eq
      have hstop := of_decide_eq_true (hend.resolve_left (List.cons_ne_nil c l₂))
      obtain rfl := Option.some.inj (hnext.symm.trans hstop)
      refine ⟨_, rfl, ?_⟩
      have herase : (l₁ ++ b :: c :: l₂).erase c = l₁ ++ b :: l₂ := by
        obtain ⟨-, hb, hdisjoint⟩ := List.nodup_append.1 hnodup
        have hmem : c ∈ b :: c :: l₂ := List.mem_cons_of_mem _ List.mem_cons_self
        have hcl : c ∉ l₁ := fun hm => hdisjoint c hm c hmem rfl
        have hcb : b ≠ c := fun heq =>
          (List.nodup_cons.1 hb).1 (heq ▸ List.mem_cons_self)
        rw [List.erase_append_right _ hcl, List.erase_cons_tail (by simpa using hcb),
          List.erase_cons_head]
      rw [hsplit, herase]
      exact h.unlink hsplit

/-- A list that is divided where the insertion stops. -/
theorem insertBy_eq {stop : Addr → Bool} {l₁ l₂ : List Addr} (hbefore : ∀ c ∈ l₁, stop c = false)
    (hat : ∀ c ∈ l₂.head?, stop c = true) :
    Numbering.insertBy stop item (l₁ ++ l₂) = l₁ ++ item :: l₂ := by
  induction l₁ with
  | nil =>
    cases l₂ with
    | nil => rfl
    | cons c l₂ => exact if_pos (hat c rfl)
  | cons a l₁ ih =>
    obtain ⟨ha, hrest⟩ := List.forall_mem_cons.1 hbefore
    rw [List.cons_append, Numbering.insertBy, if_neg (by rw [ha]; exact Bool.false_ne_true),
      ih hrest]
    rfl

/-- **The insertion of `iscsi_add_to_outqueue`.** -/
theorem listInsert (h : s.Represents lists) (hitem : ∀ j, item ∉ lists j) (stop : Addr → Bool)
    {fuel : Nat} (hfuel : (lists i).length ≤ fuel) :
    ∃ s', s.listInsert i item stop fuel = .ok s' ∧
      s'.Represents (Function.update lists i (Numbering.insertBy stop item (lists i))) := by
  have hlinked := h.linked i
  unfold Chains.listInsert
  cases hhead : s.head i with
  | none =>
    rw [hhead] at hlinked
    have hnil : lists i = [] := by
      have hempty : Linked s.next none [] := rfl
      exact hlinked.unique hempty
    have hadd := h.listAdd (i := i) hitem
    rw [hnil] at hadd ⊢
    exact ⟨_, rfl, hadd⟩
  | some first =>
    rw [hhead] at hlinked
    obtain ⟨l₁, l₂, hsplit, hbefore, hat, hplace⟩ := @place_spec _ _ _ _ stop hlinked _ hfuel []
    rw [List.getLast?_nil, List.nil_append] at hplace
    simp only [hplace]
    rw [hsplit, insertBy_eq hbefore hat]
    rcases List.eq_nil_or_concat l₁ with rfl | ⟨l, b, rfl⟩
    · refine ⟨_, rfl, ?_⟩
      have hadd := h.listAdd (i := i) hitem
      unfold Chains.listAdd at hadd
      rw [hhead, hlinked.head_eq, hsplit] at hadd
      exact hadd
    · rw [List.concat_eq_append] at hsplit ⊢
      rw [List.getLast?_concat]
      refine ⟨_, rfl, ?_⟩
      rw [List.append_assoc] at hsplit ⊢
      have hinsert := h.insert hitem hsplit
      have hnext : s.next b = l₂.head? := by
        rw [hsplit] at hlinked
        obtain ⟨u, -, -, hu⟩ := path_append.1 hlinked
        exact hu.head_eq
      rw [hnext] at hinsert
      exact hinsert

end Chains.Represents

/-! ## Sequences of operations -/

/-- What is done to a list. -/
inductive ListOp (ι : Type) where
  | add (i : ι) (item : Addr)
  | addEnd (i : ι) (item : Addr)
  | insert (i : ι) (item : Addr) (stop : Addr → Bool)
  | remove (i : ι) (item : Addr)

namespace ListOp

/-- The operation on the chains; the number bounds the turns of its loop. -/
def exec (fuel : Nat) (s : Chains ι) : ListOp ι → Res (Chains ι)
  | add i item => .ok (s.listAdd i item)
  | addEnd i item => s.listAddEnd i item fuel
  | insert i item stop => s.listInsert i item stop fuel
  | remove i item => s.listRemove i item fuel

/-- The operation on the lists. -/
def apply (lists : ι → List Addr) : ListOp ι → Res (ι → List Addr)
  | add i item => .ok (Function.update lists i (item :: lists i))
  | addEnd i item => .ok (Function.update lists i (lists i ++ [item]))
  | insert i item stop =>
    .ok (Function.update lists i (Numbering.insertBy stop item (lists i)))
  | remove i item => do
    let l ← Libiscsi.listRemove (lists i) item
    .ok (Function.update lists i l)

/-- An item that is put into a list is in none. -/
def Allowed (lists : ι → List Addr) : ListOp ι → Prop
  | add _ item | addEnd _ item | insert _ item _ => ∀ j, item ∉ lists j
  | remove _ _ => True

/-- A list grows by one item at most. -/
theorem length_apply {op : ListOp ι} {lists lists' : ι → List Addr}
    (h : op.apply lists = .ok lists') (j : ι) : (lists' j).length ≤ (lists j).length + 1 := by
  have hupdate : ∀ (i : ι) (l : List Addr), l.length ≤ (lists i).length + 1 →
      (Function.update lists i l j).length ≤ (lists j).length + 1 := by
    intro i l hl
    by_cases hj : j = i
    · subst hj
      rw [Function.update_self]
      exact hl
    · rw [Function.update_of_ne hj]
      omega
  cases op with
  | add i item =>
    obtain rfl := Except.ok.inj h
    exact hupdate i _ le_rfl
  | addEnd i item =>
    obtain rfl := Except.ok.inj h
    refine hupdate i _ ?_
    rw [List.length_append, List.length_singleton]
  | insert i item stop =>
    obtain rfl := Except.ok.inj h
    refine hupdate i _ ?_
    rw [(Numbering.perm_insertBy stop item (lists i)).length_eq, List.length_cons]
  | remove i item =>
    obtain ⟨l, hl, h⟩ := Outcome.bind_eq_ok.1 h
    obtain rfl := Except.ok.inj h
    refine hupdate i _ ?_
    rw [(listRemove_eq_ok.1 hl).2]
    exact (List.length_erase_le ..).trans (Nat.le_succ _)

end ListOp

/-- What the chains come to is what the lists come to. -/
def Refines (chains : Res (Chains ι)) : Res (ι → List Addr) → Prop
  | .ok lists => ∃ s, chains = .ok s ∧ s.Represents lists
  | .error e => chains = .error e

/-- One operation. -/
theorem ListOp.exec_refines {s : Chains ι} {lists : ι → List Addr} (h : s.Represents lists)
    {op : ListOp ι} (hop : op.Allowed lists) {fuel : Nat}
    (hfuel : ∀ i, (lists i).length ≤ fuel) : Refines (op.exec fuel s) (op.apply lists) := by
  cases op with
  | add i item => exact ⟨_, rfl, h.listAdd hop⟩
  | addEnd i item => exact h.listAddEnd hop (hfuel i)
  | insert i item stop => exact h.listInsert hop stop (hfuel i)
  | remove i item =>
    rcases eq_or_ne (lists i) [] with hnil | hne
    · have hhead : s.head i = none := by
        have hlinked := h.linked i
        rw [hnil] at hlinked
        exact hlinked
      have happly : (remove i item).apply lists = .error .nullDeref := by
        change (do let l ← Libiscsi.listRemove (lists i) item; _) = _
        rw [hnil]
        rfl
      rw [happly]
      change s.listRemove i item fuel = _
      unfold Chains.listRemove
      rw [hhead]
      rfl
    · have happly : (remove i item).apply lists =
          .ok (Function.update lists i ((lists i).erase item)) := by
        change (do let l ← Libiscsi.listRemove (lists i) item; _) = _
        rw [listRemove_eq_ok.2 ⟨hne, rfl⟩]
        rfl
      rw [happly]
      exact h.listRemove hne (hfuel i)

/-- The operations on the chains, one after the other. -/
def runListOps (fuel : Nat) (s : Chains ι) (ops : List (ListOp ι)) : Res (Chains ι) :=
  ops.foldlM (ListOp.exec fuel) s

/-- The operations on the lists. -/
def applyListOps (lists : ι → List Addr) (ops : List (ListOp ι)) : Res (ι → List Addr) :=
  ops.foldlM ListOp.apply lists

/-- Every item that is put into a list is in none at that time. -/
def AllAllowed : List (ListOp ι) → (ι → List Addr) → Prop
  | [], _ => True
  | op :: ops, lists => op.Allowed lists ∧ ∀ lists', op.apply lists = .ok lists' →
      AllAllowed ops lists'

/-- **The macros keep lists**: any sequence of them, on any number of lists that share the links,
does what the same operations on lists do, and runs into a null pointer exactly when these do. -/
theorem runListOps_refines {s : Chains ι} {lists : ι → List Addr} (h : s.Represents lists)
    {ops : List (ListOp ι)} (hops : AllAllowed ops lists) {fuel : Nat}
    (hfuel : ∀ i, (lists i).length + ops.length ≤ fuel) :
    Refines (runListOps fuel s ops) (applyListOps lists ops) := by
  induction ops generalizing s lists with
  | nil => exact ⟨s, rfl, h⟩
  | cons op ops ih =>
    have hstep := ListOp.exec_refines h hops.1 fun i => (Nat.le_add_right _ _).trans (hfuel i)
    unfold runListOps applyListOps
    rw [List.foldlM_cons, List.foldlM_cons]
    cases happly : op.apply lists with
    | error e =>
      rw [happly] at hstep
      have hexec : op.exec fuel s = .error e := hstep
      rw [hexec]
      rfl
    | ok lists' =>
      rw [happly] at hstep
      obtain ⟨s', hexec, h'⟩ := hstep
      rw [hexec, Outcome.ok_bind, Outcome.ok_bind]
      refine ih h' (hops.2 lists' happly) fun i => ?_
      have hgrow := ListOp.length_apply happly i
      have hroom := hfuel i
      rw [List.length_cons] at hroom
      omega

/-- Two PDUs are queued, and the first is moved to another list. -/
theorem runListOps_refines_move : Refines
    (runListOps 4 ⟨fun _ : Bool => none, fun _ => none⟩
      [.addEnd true 1, .addEnd true 2, .remove true 1, .addEnd false 1])
    (applyListOps (fun _ => [])
      [.addEnd true 1, .addEnd true 2, .remove true 1, .addEnd false 1]) := by
  refine runListOps_refines (.empty _) ?_ fun _ => le_rfl
  refine ⟨fun _ => List.not_mem_nil, ?_⟩
  rintro _ ⟨⟩
  refine ⟨fun j => (by cases j <;> decide), ?_⟩
  rintro _ ⟨⟩
  refine ⟨trivial, ?_⟩
  rintro _ ⟨⟩
  refine ⟨fun j => (by cases j <;> decide), ?_⟩
  rintro _ ⟨⟩
  trivial

/-! ## The queues of a context -/

/-- The lists of a context. -/
inductive ContextList where
  | outqueue | waitpdu
  deriving DecidableEq

/-- Its items. -/
def Context.listOf (c : Context) : ContextList → List Addr
  | .outqueue => c.outqueue
  | .waitpdu => c.waitpdu

/-- **What `iscsi_add_to_outqueue` does to the chains** is what its model does to the queue: the PDU
is linked in before the first one at which the loop is to stop, and the chains stand for the lists
of the context again. -/
theorem enqueue_represents {w w' : World} {a : Addr} {s : Chains ContextList}
    (h : s.Represents w.iscsi.listOf) (ha : ∀ j, a ∉ w.iscsi.listOf j)
    (henq : enqueue w a = .ok w') {fuel : Nat} (hfuel : w.iscsi.outqueue.length ≤ fuel) :
    ∃ q s', w'.pdus a = some q ∧
      s.listInsert .outqueue a (w'.stopsAt q) fuel = .ok s' ∧ s'.Represents w'.iscsi.listOf := by
  obtain ⟨_, q, -, -, hframe, -⟩ := enqueue_spec (ha .outqueue) henq
  have hq : w'.pdus a = some q := by
    rw [hframe, World.put_pdus, Function.update_self]
  have hroom : (w.iscsi.listOf .outqueue).length ≤ fuel := hfuel
  obtain ⟨s', hinsert, hs'⟩ := h.listInsert ha (w'.stopsAt q) hroom
  refine ⟨q, s', hq, hinsert, ?_⟩
  have hlists : w'.iscsi.listOf = Function.update w.iscsi.listOf .outqueue
      (Numbering.insertBy (w'.stopsAt q) a w.iscsi.outqueue) := by
    have hiscsi : w'.iscsi = w.iscsi.setOutqueue
        (Numbering.insertBy (w'.stopsAt q) a w.iscsi.outqueue) := congrArg World.iscsi hframe
    rw [hiscsi]
    funext j
    cases j <;> rfl
  rw [hlists]
  exact hs'

/-- A PDU is queued behind another one with its CmdSN. -/
theorem enqueue_represents_second : ∃ w' q s',
    enqueue ({ iscsi := { outqueue := [0] }, pdus := fun _ => some {} } : World) 1 = .ok w' ∧
      w'.pdus 1 = some q ∧
      Chains.listInsert ⟨fun j => if j = .outqueue then some 0 else none, fun _ => none⟩
        ContextList.outqueue 1 (w'.stopsAt q) 1 = .ok s' ∧ s'.Represents w'.iscsi.listOf := by
  have hchains : Chains.Represents
      (⟨fun j => if j = .outqueue then some 0 else none, fun _ => none⟩ : Chains ContextList)
      (Context.listOf { outqueue := [0] }) := by
    constructor
    · intro i
      cases i
      · exact ⟨rfl, rfl⟩
      · rfl
    · intro i j hne a ha
      cases i <;> cases j <;> simp_all [Context.listOf]
  have hitem : ∀ j, 1 ∉ Context.listOf { outqueue := [0] } j := by
    intro j
    cases j <;> decide
  obtain ⟨q, s', h⟩ := enqueue_represents
    (w := { iscsi := { outqueue := [0] }, pdus := fun _ => some {} }) hchains hitem rfl le_rfl
  exact ⟨_, q, s', rfl, h⟩

end Libiscsi
