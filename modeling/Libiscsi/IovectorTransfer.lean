import Libiscsi.Crc32c
import Libiscsi.IovectorSpec

/-!
# A transfer from or to the vectors of a task

`iscsi_iovector_readv_writev` (`lib/socket.c`) with everything it writes: the cursor, the vectors,
the digest and, through `readv`, the memory. It cuts the first and the last of the vectors it
passes to the system call, which may be the same one, and restores them afterwards. Lengths and
addresses have 64 bits, the sum `pos + count` has 32.
-/

namespace Libiscsi

/-- `readv` or `writev` on vectors and the memory: the number of bytes transferred or an error, and
the memory after the call. -/
abbrev VectorCall := List ScsiIovec → (Nat → UInt8) → Option Nat × (Nat → UInt8)

/-- What a transfer reads and writes; `digest` is `none` when `data_digest_ptr` is NULL. -/
structure Transfer where
  iovector : ScsiIovector
  mem : Nat → UInt8
  digest : Option UInt32

/-- The outcome of a transfer: its return value, with `none` for -1, the vectors that were passed
to the system call, if there was one, and the state after it. -/
structure Transferred where
  ret : Option Nat
  passed : Option (List ScsiIovec)
  state : Transfer

/-- The transfer ends with an error before the system call. -/
def Transfer.refuse (s : Transfer) : Transferred := ⟨none, none, s⟩

/-- `iov->iov_base += pos; iov->iov_len -= pos`. -/
def ScsiIovec.advance (x : ScsiIovec) (pos : Nat) : ScsiIovec :=
  { iovBase := (x.iovBase + pos) % 2 ^ 64, iovLen := (x.iovLen + 2 ^ 64 - pos) % 2 ^ 64 }

/-- `iov->iov_base -= pos; iov->iov_len += pos`. -/
def ScsiIovec.retreat (x : ScsiIovec) (pos : Nat) : ScsiIovec :=
  { iovBase := (x.iovBase + 2 ^ 64 - pos) % 2 ^ 64, iovLen := (x.iovLen + pos) % 2 ^ 64 }

/-- `iov->iov_len = len`. -/
def ScsiIovec.setLen (x : ScsiIovec) (len : Nat) : ScsiIovec := { x with iovLen := len }

/-- The loop that looks for the last vector: how many vectors are before it, and the part of
`len2` that is in it. -/
def iovectorLast : List ScsiIovec → Nat → Option (Nat × Nat)
  | [], _ => none
  | x :: rest, len2 =>
    if len2 > x.iovLen then (iovectorLast rest (len2 - x.iovLen)).map fun (k, len2) => (k + 1, len2)
    else some (0, len2)

/-- The loop that adds the bytes that were transferred to the digest. -/
def digestVectors (mem : Nat → UInt8) : List ScsiIovec → Nat → UInt32 → UInt32
  | [], _, digest => digest
  | x :: rest, bytes, digest =>
    if bytes = 0 then digest
    else
      let chunk := min bytes x.iovLen
      digestVectors mem rest (bytes - chunk)
        (crc32cChain digest ((List.range chunk).map fun i => mem (x.iovBase + i)))

/-- The part of `iscsi_iovector_readv_writev` that changes the vectors, calls `readv` or `writev`
and restores the vectors: the first vector is that of the cursor, with the position `pos` in it,
the last one is `k` vectors further, with `len2` bytes. -/
def transferVectors (call : VectorCall) (s : Transfer) (iov : List ScsiIovec)
    (pos count k len2 : Nat) : Transferred :=
  let first := s.iovector.consumed
  let last := first + k
  let len := (iov[last]?.getD {}).iovLen
  let cut := (iov.modify last (·.setLen len2)).modify first (·.advance pos)
  let passed := (cut.drop first).take (k + 1)
  let (n, mem) := call passed s.mem
  let digest := match n with
    | some n => s.digest.map (digestVectors mem passed n)
    | none => s.digest
  let restored := (cut.modify first (·.retreat pos)).modify last (·.setLen len)
  let ret := match n with
    | some n => if n > count then none else some n
    | none => none
  ⟨ret, some passed, { iovector := { s.iovector with iov := some restored }, mem, digest }⟩

/-- `iscsi_iovector_readv_writev`. -/
def iscsiIovectorReadvWritev (call : VectorCall) (s : Transfer) (pos count : Nat) : Transferred :=
  match s.iovector.iov with
  | none => s.refuse
  | some iov =>
    if pos < s.iovector.offset then s.refuse
    else if iov.length ≤ s.iovector.consumed then s.refuse
    else
      match iovectorHead (iov.drop s.iovector.consumed) s.iovector (pos - s.iovector.offset) with
      | (iovector, none) => { s with iovector }.refuse
      | (iovector, some (rest, pos)) =>
        match iovectorLast rest ((pos + count) % 2 ^ 32) with
        | none => { s with iovector }.refuse
        | some (k, len2) => transferVectors call { s with iovector } iov pos count k len2

/-! ## The addresses of vectors -/

/-- The addresses that vectors have bytes at. -/
def iovecAddrs (iov : List ScsiIovec) : List Nat :=
  iov.flatMap fun x => (List.range x.iovLen).map (x.iovBase + ·)

section
variable (l l' : List ScsiIovec) (x : ScsiIovec) (mem : Nat → UInt8)

@[simp] theorem iovecAddrs_nil : iovecAddrs [] = [] := rfl

@[simp] theorem iovecAddrs_cons :
    iovecAddrs (x :: l) = (List.range x.iovLen).map (x.iovBase + ·) ++ iovecAddrs l := rfl

@[simp] theorem iovecAddrs_append : iovecAddrs (l ++ l') = iovecAddrs l ++ iovecAddrs l' :=
  List.flatMap_append

@[simp] theorem length_iovecAddrs : (iovecAddrs l).length = iovecLength l := by
  induction l with
  | nil => rfl
  | cons x l ih => simp [ih, iovecLength]

/-- The bytes of vectors are the bytes at their addresses. -/
theorem iovecBytes_eq_map : iovecBytes mem l = (iovecAddrs l).map mem := by
  induction l with
  | nil => rfl
  | cons x l ih => simp [ih, Function.comp_def]

@[simp] theorem iovecLength_cons : iovecLength (x :: l) = x.iovLen + iovecLength l := rfl

end

/-- The digest is extended by the bytes that were transferred. -/
theorem digestVectors_eq (mem : Nat → UInt8) : ∀ (l : List ScsiIovec) (n : Nat) (digest : UInt32),
    digestVectors mem l n digest = crc32cChain digest (((iovecAddrs l).take n).map mem)
  | [], n, digest => by simp [digestVectors]
  | x :: l, n, digest => by
    rw [digestVectors]
    split
    · next h => simp [h]
    · have hchunk : ((List.range x.iovLen).map (x.iovBase + ·)).take n =
          (List.range (min n x.iovLen)).map (x.iovBase + ·) := by
        rw [← List.map_take, List.take_range]
      rw [digestVectors_eq mem l, ← crc32cChain_append, iovecAddrs_cons, List.take_append, hchunk,
        List.map_append, List.map_map, List.length_map, List.length_range]
      congr 2
      by_cases hn : n ≤ x.iovLen
      · rw [Nat.min_eq_left hn, Nat.sub_self, Nat.sub_eq_zero_of_le hn]
      · rw [Nat.min_eq_right (by omega)]

/-! ## The last vector -/

/-- The last vector is one of the vectors, and has the end of the bytes. -/
theorem iovectorLast_some : ∀ {l : List ScsiIovec} {n k len2 : Nat},
    iovectorLast l n = some (k, len2) → ∃ pre x post, l = pre ++ x :: post ∧ pre.length = k ∧
      n = iovecLength pre + len2 ∧ len2 ≤ x.iovLen
  | [], _, _, _, h => by cases h
  | x :: l, n, k, len2, h => by
    unfold iovectorLast at h
    split at h
    · obtain ⟨⟨k', len'⟩, hl, heq⟩ := Option.map_eq_some_iff.1 h
      obtain ⟨rfl, rfl⟩ := Prod.mk.inj heq
      obtain ⟨pre, y, post, rfl, rfl, hn, hle⟩ := iovectorLast_some hl
      refine ⟨x :: pre, y, post, rfl, rfl, ?_, hle⟩
      rw [iovecLength_cons]
      omega
    · obtain ⟨rfl, rfl⟩ := Prod.mk.inj (Option.some.inj h)
      exact ⟨[], x, l, rfl, rfl, by simp [iovecLength], by omega⟩

/-- There is a last vector if the vectors have the bytes. -/
theorem iovectorLast_eq_none : ∀ {l : List ScsiIovec} {n : Nat}, 0 < n →
    (iovectorLast l n = none ↔ iovecLength l < n)
  | [], n, h => by simpa [iovectorLast, iovecLength] using h
  | x :: l, n, h => by
    unfold iovectorLast
    split
    · next hn =>
      rw [Option.map_eq_none_iff, iovectorLast_eq_none (by omega), iovecLength_cons]
      omega
    · next hn =>
      rw [iovecLength_cons]
      simp only [reduceCtorEq, false_iff]
      omega

/-- Past the end no vector has the position. -/
theorem iovectorHead_none : ∀ {l : List ScsiIovec} {v v' : ScsiIovector} {pos : Nat},
    iovectorHead l v pos = (v', none) → iovecLength l ≤ pos
  | [], _, _, _, _ => Nat.zero_le _
  | x :: l, v, v', pos, h => by
    unfold iovectorHead at h
    split at h
    · have := iovectorHead_none h
      rw [iovecLength_cons]
      omega
    · cases (Prod.mk.inj h).2

/-- The position is in the first of the vectors that are left. -/
theorem iovectorHead_some : ∀ {l : List ScsiIovec} {v v' : ScsiIovector} {pos : Nat}
    {rest : List ScsiIovec} {pos' : Nat}, iovectorHead l v pos = (v', some (rest, pos')) →
    ∃ y ys, rest = y :: ys ∧ pos' < y.iovLen
  | [], _, _, _, _, _, h => by cases (Prod.mk.inj h).2
  | x :: l, v, v', pos, rest, pos', h => by
    unfold iovectorHead at h
    split at h
    · exact iovectorHead_some h
    · next hpos =>
      obtain ⟨rfl, rfl⟩ := Prod.mk.inj (Option.some.inj (Prod.mk.inj h).2)
      exact ⟨x, l, rfl, by omega⟩

end Libiscsi
