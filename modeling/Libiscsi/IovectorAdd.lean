import Libiscsi.Iovector
import Libiscsi.Lib.Outcome
import Mathlib.Logic.Function.Basic

/-!
# Vectors that grow

`scsi_iovector_add` (`lib/scsi-lowlevel.c`) appends a buffer to a vector of a task. The array of the
vector is that of the application (`scsi_task_set_iov_in`, `scsi_task_set_iov_out`) or one that was
allocated here, and `nalloc` is set only for the second kind. So what is stored is what was given
exactly if (`iovRun_iff`) each buffer finds either no array, or one that has room for it where
`nalloc` says so, or one that is not longer than what is allocated instead of it.
-/

namespace Libiscsi

/-- The two vectors of a task. -/
inductive IovDir where
  | input
  | output
  deriving DecidableEq, Repr

/-- `struct scsi_iovector`, with the whole array that `iov` points to. -/
structure IovArray where
  iov : Option (List ScsiIovec) := none
  niov : Nat := 0
  nalloc : Nat := 0
  offset : Nat := 0
  consumed : Nat := 0
  deriving DecidableEq, Repr

/-- What the C program has no meaning for. -/
inductive IovFault where
  /-- An entry behind the end of an array is read or written. -/
  | outOfBounds
  /-- An `int` overflows. -/
  | overflow
  deriving DecidableEq, Repr

namespace IovArray

/-- The vector as the transfers see it. -/
def toScsiIovector (v : IovArray) : ScsiIovector :=
  { iov := v.iov.map (·.take v.niov), offset := v.offset, consumed := v.consumed }

/-- The array, with no entries for NULL. -/
def entries (v : IovArray) : List ScsiIovec := v.iov.getD []

end IovArray

/-- `IOVECTOR_INITAL_ALLOC`. -/
def iovectorInitalAlloc : Nat := 16

/-- The array that `scsi_malloc` returns. -/
def iovAlloc (n : Nat) : List ScsiIovec := List.replicate n {}

/-- `memcpy` of the first entries of an array to another one. -/
def iovCopy (n : Nat) (src dst : List ScsiIovec) : Except IovFault (List ScsiIovec) :=
  if src.length < n ∨ dst.length < n then .error .outOfBounds
  else .ok (src.take n ++ dst.drop n)

/-- An entry is written. -/
def iovStore (a : List ScsiIovec) (i : Nat) (x : ScsiIovec) : Except IovFault (List ScsiIovec) :=
  if i < a.length then .ok (a.set i x) else .error .outOfBounds

/-- The array with room for one more entry, and its `nalloc`, if it can be allocated. -/
def iovRoom (larger : Bool) (v : IovArray) (a : List ScsiIovec) (nalloc : Nat) :
    Except IovFault (Option (List ScsiIovec × Nat)) :=
  if v.niov + 1 ≤ nalloc then .ok (some (a, nalloc))
  else if 2 ^ 31 ≤ 2 * nalloc then .error .overflow
  else if larger = false then .ok none
  else do
    let a ← iovCopy v.niov a (iovAlloc (2 * nalloc))
    .ok (some (a, 2 * nalloc))

/-- `scsi_iovector_add` once there is an array. -/
def iovAppend (larger : Bool) (v : IovArray) (a : List ScsiIovec) (nalloc : Nat) (x : ScsiIovec) :
    Except IovFault (Int × IovArray) :=
  if 2 ^ 31 ≤ v.niov + 1 then .error .overflow
  else do
    match ← iovRoom larger v a nalloc with
    | none => .ok (-1, { v with iov := none, nalloc := nalloc })
    | some (a, nalloc) =>
      let a ← iovStore a v.niov x
      .ok (0, { v with iov := some a, nalloc := nalloc, niov := v.niov + 1 })

/-- `scsi_iovector_add`, with its return value. The two flags say whether the first array and the
larger one can be allocated. -/
def scsiIovectorAdd (first larger : Bool) (v : IovArray) (len : Int) (buf : Nat) :
    Except IovFault (Int × IovArray) :=
  if len < 0 then .ok (-1, v)
  else
    match v.iov with
    | some a => iovAppend larger v a v.nalloc { iovBase := buf, iovLen := len.toNat }
    | none =>
      if first = false then .ok (-1, v)
      else iovAppend larger v (iovAlloc iovectorInitalAlloc) iovectorInitalAlloc
        { iovBase := buf, iovLen := len.toNat }

/-- An array of the application, or NULL: the number of its vectors is an `int`, and it has them. -/
structure GivenIov where
  iov : Option (List ScsiIovec)
  niov : Nat
  niov_le : niov ≤ (iov.getD []).length
  niov_lt : niov < 2 ^ 31

/-- `scsi_task_set_iov_in` and `scsi_task_set_iov_out`. -/
def scsiTaskSetIov (v : IovArray) (g : GivenIov) : IovArray :=
  { v with iov := g.iov, niov := g.niov }

/-- `scsi_task_reset_iov`. -/
def IovArray.resetIov (v : IovArray) : IovArray := { v with offset := 0, consumed := 0 }

/-! ## Runs -/

/-- What the application does to a task. -/
inductive IovCall where
  | set (dir : IovDir) (g : GivenIov)
  | add (dir : IovDir) (first larger : Bool) (len : Int) (buf : Nat)
  | reset (dir : IovDir)

/-- The vectors of a task, with the segments that they were given. -/
structure IovTask where
  vector : IovDir → IovArray := fun _ => {}
  given : IovDir → List ScsiIovec := fun _ => []

/-- One call. -/
def iovCall (t : IovTask) : IovCall → Except IovFault IovTask
  | .set dir g => .ok
      { vector := Function.update t.vector dir (scsiTaskSetIov (t.vector dir) g)
        given := Function.update t.given dir ((g.iov.getD []).take g.niov) }
  | .add dir first larger len buf => do
      let (r, v) ← scsiIovectorAdd first larger (t.vector dir) len buf
      .ok
        { vector := Function.update t.vector dir v
          given := if r = 0 then Function.update t.given dir
              (t.given dir ++ [{ iovBase := buf, iovLen := len.toNat }]) else t.given }
  | .reset dir => .ok
      { t with vector := Function.update t.vector dir (t.vector dir).resetIov }

/-- A vector stores segments: its array has room for what it says it has, which are these. -/
def IovArray.Stores (v : IovArray) (segments : List ScsiIovec) : Prop :=
  v.niov ≤ v.entries.length ∧ v.entries.take v.niov = segments

/-- Both vectors store what they were given. -/
def IovTask.Faithful (t : IovTask) : Prop := ∀ dir, (t.vector dir).Stores (t.given dir)

/-- All calls have a meaning, and the vectors store what they were given in every state. -/
def IovRunFaithful : IovTask → List IovCall → Prop
  | t, [] => t.Faithful
  | t, c :: calls => t.Faithful ∧ ∃ t', iovCall t c = .ok t' ∧ IovRunFaithful t' calls

/-- The array that a buffer finds has room for it where `nalloc` says so; else it is not longer than
the one that is allocated instead of it, or it is empty and none is allocated. -/
def IovArray.RoomSafe (v : IovArray) (larger : Bool) (capacity nalloc : Nat) : Prop :=
  v.niov + 1 < 2 ^ 31 ∧
    if v.niov < nalloc then v.niov < capacity
    else if larger = true then 2 * nalloc < 2 ^ 31 ∧ v.niov < 2 * nalloc
    else v.niov = 0

/-- A buffer is refused, or it finds no array, or one for which it is safe. -/
def IovArray.AddSafe (v : IovArray) (larger : Bool) (len : Int) : Prop :=
  len < 0 ∨ v.iov = none ∨ v.RoomSafe larger v.entries.length v.nalloc

/-- A call is safe unless it adds a buffer to a vector for which that is not. -/
def IovCall.Safe (t : IovTask) : IovCall → Prop
  | .add dir _ larger len _ => (t.vector dir).AddSafe larger len
  | _ => True

/-- The calls are safe, each in the state before it. -/
def IovCallsSafe : IovTask → List IovCall → Prop
  | _, [] => True
  | t, c :: calls =>
    c.Safe t ∧ ∀ t', iovCall t c = .ok t' → IovCallsSafe t' calls

/-! ## One vector -/

namespace IovArray
variable {v : IovArray} {segments : List ScsiIovec}

/-- What a call of the application gives is stored. -/
theorem stores_setIov (g : GivenIov) :
    (scsiTaskSetIov v g).Stores ((g.iov.getD []).take g.niov) :=
  ⟨g.niov_le, rfl⟩

theorem toScsiIovector_resetIov :
    v.resetIov.toScsiIovector = scsiTaskResetIov v.toScsiIovector := rfl

/-- The transfers see the segments that are stored. -/
theorem Stores.toScsiIovector (h : v.Stores segments) :
    v.toScsiIovector.iov.getD [] = segments := by
  obtain ⟨-, htake⟩ := h
  unfold entries at htake
  unfold IovArray.toScsiIovector
  cases hiov : v.iov with
  | none =>
    rw [hiov, Option.getD_none, List.take_nil] at htake
    exact htake
  | some a =>
    rw [hiov] at htake
    exact htake

theorem stores_resetIov (h : v.Stores segments) : v.resetIov.Stores segments := h

/-- An array with a further entry behind those of a vector. -/
theorem take_set_succ {a : List ScsiIovec} {n : Nat} (h : n < a.length) (x : ScsiIovec) :
    (a.set n x).take (n + 1) = a.take n ++ [x] := by
  rw [List.take_add_one, List.take_set_of_le le_rfl, List.getElem?_set_self h]
  rfl

/-- The entry is written behind those of the vector. -/
theorem iovStore_iff {a : List ScsiIovec} {nalloc : Nat} {x : ScsiIovec}
    (htake : a.take v.niov = segments) :
    (∃ (r : Int) (v' : IovArray), (do
      let a ← iovStore a v.niov x
      .ok (0, { v with iov := some a, nalloc := nalloc, niov := v.niov + 1 })) = .ok (r, v') ∧
      v'.Stores (if r = 0 then segments ++ [x] else segments)) ↔ v.niov < a.length := by
  unfold iovStore
  by_cases hroom : v.niov < a.length
  · refine iff_of_true ⟨0, _, by rw [if_pos hroom]; rfl, ?_, ?_⟩ hroom
    · exact (List.length_set ..).symm ▸ hroom
    · rw [if_pos rfl, ← htake]
      exact take_set_succ hroom x
  · refine iff_of_false ?_ hroom
    rintro ⟨r, v', heq, -⟩
    rw [if_neg hroom] at heq
    cases heq

/-- A buffer is appended, or refused without a change, exactly if its array is safe for it. -/
theorem iovAppend_iff {larger : Bool} {a : List ScsiIovec} {nalloc : Nat} {x : ScsiIovec}
    (hle : v.niov ≤ a.length) (htake : a.take v.niov = segments) :
    (∃ r v', iovAppend larger v a nalloc x = .ok (r, v') ∧
      v'.Stores (if r = 0 then segments ++ [x] else segments)) ↔
    v.RoomSafe larger a.length nalloc := by
  unfold iovAppend RoomSafe
  by_cases hint : 2 ^ 31 ≤ v.niov + 1
  · refine iff_of_false ?_ fun h => absurd h.1 (Nat.not_lt.2 hint)
    rintro ⟨r, v', heq, -⟩
    rw [if_pos hint] at heq
    cases heq
  rw [if_neg hint, and_iff_right (Nat.lt_of_not_le hint)]
  unfold iovRoom
  by_cases hroom : v.niov < nalloc
  · rw [if_pos (show v.niov + 1 ≤ nalloc from hroom), if_pos hroom]
    exact iovStore_iff htake
  rw [if_neg (show ¬v.niov + 1 ≤ nalloc from hroom), if_neg hroom]
  by_cases hdouble : 2 ^ 31 ≤ 2 * nalloc
  · rw [if_pos hdouble]
    refine iff_of_false ?_ ?_
    · rintro ⟨r, v', heq, -⟩
      cases heq
    · split <;> omega
  rw [if_neg hdouble]
  cases larger with
  | false =>
    rw [if_pos rfl, if_neg Bool.false_ne_true]
    constructor
    · rintro ⟨r, v', heq, hstores⟩
      cases heq
      exact Nat.le_zero.1 hstores.1
    · intro hzero
      refine ⟨-1, _, rfl, Nat.le_of_eq hzero, ?_⟩
      rw [← htake, hzero]
      rfl
  | true =>
    rw [if_neg (Ne.symm Bool.false_ne_true), if_pos rfl,
      and_iff_right (Nat.lt_of_not_le hdouble)]
    unfold iovCopy
    have hlen : (iovAlloc (2 * nalloc)).length = 2 * nalloc := List.length_replicate
    by_cases hcopy : 2 * nalloc < v.niov
    · rw [if_pos (.inr (hlen.trans_lt hcopy))]
      refine iff_of_false ?_ (by omega)
      rintro ⟨r, v', heq, -⟩
      cases heq
    rw [if_neg (by rw [hlen]; omega)]
    have hgrown : (a.take v.niov ++ (iovAlloc (2 * nalloc)).drop v.niov).length = 2 * nalloc := by
      rw [List.length_append, List.length_take_of_le hle, List.length_drop, hlen]
      omega
    have hstore := @iovStore_iff v segments (a.take v.niov ++ (iovAlloc (2 * nalloc)).drop v.niov)
      (2 * nalloc) x ?_
    · rw [hgrown] at hstore
      exact hstore
    rw [List.take_append_of_le_length (List.length_take_of_le hle).ge, List.take_take,
      Nat.min_self, htake]

/-- **What `scsi_iovector_add` does to a vector that stores segments.** -/
theorem scsiIovectorAdd_iff {first larger : Bool} {len : Int} {buf : Nat}
    (h : v.Stores segments) :
    (∃ r v', scsiIovectorAdd first larger v len buf = .ok (r, v') ∧
      v'.Stores (if r = 0 then segments ++ [{ iovBase := buf, iovLen := len.toNat }]
        else segments)) ↔ v.AddSafe larger len := by
  obtain ⟨hle, htake⟩ := h
  unfold scsiIovectorAdd AddSafe
  by_cases hlen : len < 0
  · exact iff_of_true ⟨-1, v, if_pos hlen, hle, htake⟩ (.inl hlen)
  rw [if_neg hlen, or_iff_right hlen]
  unfold entries at hle htake ⊢
  cases hiov : v.iov with
  | some a =>
    rw [hiov] at hle htake
    rw [or_iff_right (Option.some_ne_none a)]
    exact iovAppend_iff hle htake
  | none =>
    rw [hiov] at hle htake
    refine iff_of_true ?_ (.inl rfl)
    have hniov : v.niov = 0 := Nat.le_zero.1 hle
    cases first with
    | false =>
      refine ⟨-1, v, rfl, ?_⟩
      unfold Stores entries
      rw [hiov]
      exact ⟨hle, htake⟩
    | true =>
      refine (iovAppend_iff (hniov.trans_le (Nat.zero_le _)) ?_).2 ?_
      · rw [hniov] at htake ⊢
        exact htake
      · unfold RoomSafe
        rw [hniov]
        exact ⟨by decide, by rw [if_pos (by decide)]; decide⟩

end IovArray

/-! ## All calls -/

namespace IovTask
variable {t : IovTask}

/-- A call on one vector leaves the other as it is. -/
theorem faithful_update_iff (h : t.Faithful) (dir : IovDir) (v : IovArray)
    (segments : List ScsiIovec) :
    Faithful { vector := Function.update t.vector dir v
               given := Function.update t.given dir segments } ↔ v.Stores segments := by
  constructor
  · intro hall
    have hdir := hall dir
    simp only [Function.update_self] at hdir
    exact hdir
  · intro hv other
    by_cases hother : other = dir
    · subst hother
      simp only [Function.update_self]
      exact hv
    · simp only [Function.update_of_ne hother]
      exact h other

/-- A call has a meaning and keeps what is stored exactly if it is safe. -/
theorem iovCall_iff (h : t.Faithful) (c : IovCall) :
    (∃ t', iovCall t c = .ok t' ∧ t'.Faithful) ↔ c.Safe t := by
  cases c with
  | set dir g =>
    refine iff_of_true ⟨_, rfl, ?_⟩ trivial
    exact (faithful_update_iff h dir _ _).2 (IovArray.stores_setIov g)
  | reset dir =>
    refine iff_of_true ⟨_, rfl, ?_⟩ trivial
    have hupdate := (faithful_update_iff h dir _ _).2 (IovArray.stores_resetIov (h dir))
    rw [Function.update_eq_self] at hupdate
    exact hupdate
  | add dir first larger len buf =>
    refine Iff.trans ?_ (@IovArray.scsiIovectorAdd_iff _ _ first larger len buf (h dir))
    simp only [iovCall]
    cases hadd : scsiIovectorAdd first larger (t.vector dir) len buf with
    | error e =>
      refine iff_of_false ?_ ?_
      · rintro ⟨t', heq, -⟩
        cases heq
      · rintro ⟨r, v', heq, -⟩
        cases heq
    | ok result =>
      obtain ⟨r, v⟩ := result
      have hstores : (∃ r' v', (Except.ok (r, v) : Except IovFault (Int × IovArray)) =
          .ok (r', v') ∧ v'.Stores (if r' = 0 then
            t.given dir ++ [{ iovBase := buf, iovLen := len.toNat }] else t.given dir)) ↔
          v.Stores (if r = 0 then
            t.given dir ++ [{ iovBase := buf, iovLen := len.toNat }] else t.given dir) := by
        constructor
        · rintro ⟨r', v', heq, hv⟩
          cases heq
          exact hv
        · exact fun hv => ⟨r, v, rfl, hv⟩
      rw [hstores, ← faithful_update_iff h dir]
      have hgiven : (if r = 0 then Function.update t.given dir
          (t.given dir ++ [{ iovBase := buf, iovLen := len.toNat }]) else t.given) =
          Function.update t.given dir (if r = 0 then
            t.given dir ++ [{ iovBase := buf, iovLen := len.toNat }] else t.given dir) := by
        split
        · rfl
        · exact (Function.update_eq_self ..).symm
      rw [← hgiven]
      constructor
      · rintro ⟨t', heq, ht⟩
        cases heq
        exact ht
      · exact fun ht => ⟨_, rfl, ht⟩

theorem IovRunFaithful.start {calls : List IovCall} (h : IovRunFaithful t calls) : t.Faithful := by
  cases calls with
  | nil => exact h
  | cons c calls => exact h.1

/-- The calls from a state in which the vectors store what they were given. By induction on the
calls: a safe call leads to such a state. -/
theorem iovRunFaithful_iff {calls : List IovCall} (h : t.Faithful) :
    IovRunFaithful t calls ↔ IovCallsSafe t calls := by
  induction calls generalizing t with
  | nil => exact iff_of_true h trivial
  | cons c calls ih =>
    constructor
    · rintro ⟨-, t', hcall, hrun⟩
      have ht' := IovRunFaithful.start hrun
      refine ⟨(iovCall_iff h c).1 ⟨t', hcall, ht'⟩, fun t'' hcall' => ?_⟩
      rw [hcall] at hcall'
      cases hcall'
      exact (ih ht').1 hrun
    · rintro ⟨hsafe, hcalls⟩
      obtain ⟨t', hcall, ht'⟩ := (iovCall_iff h c).2 hsafe
      exact ⟨h, t', hcall, (ih ht').2 (hcalls t' hcall)⟩

end IovTask

/-- **In a run from a new task, the vectors store what they were given in every state exactly if
every buffer finds a vector for which that is safe.** -/
theorem iovRun_iff (calls : List IovCall) :
    IovRunFaithful {} calls ↔ IovCallsSafe {} calls :=
  IovTask.iovRunFaithful_iff fun _ => ⟨le_rfl, rfl⟩

/-- A vector of the application with one segment. -/
def oneSegment : GivenIov where
  iov := some [{ iovBase := 0, iovLen := 512 }]
  niov := 1
  niov_le := le_rfl
  niov_lt := by decide

/-- A buffer that is added to a vector of the application: `nalloc` is zero, so nothing is allocated
for the larger array. -/
theorem oneSegment_notFaithful : ¬∀ calls : List IovCall, IovRunFaithful {} calls := by
  intro h
  obtain ⟨-, t, hset, hrun⟩ := h [.set .input oneSegment, .add .input true true 512 4096]
  cases hset
  obtain ⟨-, t', hadd, -⟩ := hrun
  cases hadd

end Libiscsi
