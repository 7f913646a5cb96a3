import Mathlib

/-!
# Segments of a ring

The entries of a ring of a size from a position on, in their order. A segment that is not longer
than the ring has no entry twice (`nodup_segment`).
-/

namespace Ring

variable {size : ℕ}

/-- The segment of a length from a position on. -/
def segment (size start m : ℕ) : List ℕ := (List.range m).map fun j => (start + j) % size

theorem length_segment (start m : ℕ) : (segment size start m).length = m := by
  unfold segment
  rw [List.length_map, List.length_range]

theorem segment_mod (start m : ℕ) : segment size (start % size) m = segment size start m := by
  unfold segment
  exact List.map_congr_left fun j _ => Nat.mod_add_mod start size j

/-- The first entry of a segment, and the others. -/
theorem segment_succ (start m : ℕ) :
    segment size start (m + 1) = start % size :: segment size (start + 1) m := by
  unfold segment
  rw [List.range_succ_eq_map, List.map_cons, List.map_map, Nat.add_zero]
  refine congrArg (start % size :: ·) (List.map_congr_left fun j _ => ?_)
  rw [Function.comp_apply, Nat.succ_eq_add_one, Nat.add_assoc, Nat.add_comm j]

/-- A segment, and the one behind it. -/
theorem segment_append (start m k : ℕ) :
    segment size start m ++ segment size (start + m) k = segment size start (m + k) := by
  unfold segment
  rw [List.range_add, List.map_append, List.map_map]
  refine congrArg (_ ++ ·) (List.map_congr_left fun j _ => ?_)
  rw [Function.comp_apply, Nat.add_assoc]

/-- An entry that stands twice in a segment is there because the segment is longer than the ring. -/
theorem nodup_segment {start m : ℕ} (h : m ≤ size) : (segment size start m).Nodup := by
  unfold segment
  refine List.Nodup.map_on (fun i hi j hj heq => ?_) List.nodup_range
  have hij : i ≡ j [MOD size] := Nat.ModEq.add_left_cancel' start heq
  have hi := List.mem_range.1 hi
  have hj := List.mem_range.1 hj
  exact Nat.ModEq.eq_of_lt_of_lt hij (by omega) (by omega)

/-- A segment as long as the ring has every entry. -/
theorem mem_segment_of_le {start m i : ℕ} (hsize : size ≤ m) (hi : i < size) :
    i ∈ segment size start m := by
  unfold segment
  refine List.mem_map.2 ⟨(i + (size - start % size)) % size, List.mem_range.2 ?_, ?_⟩
  · exact (Nat.mod_lt _ (by omega)).trans_le hsize
  · have hlt := Nat.mod_lt start (show size > 0 by omega)
    rw [Nat.add_mod_mod, ← Nat.mod_add_mod,
      show start % size + (i + (size - start % size)) = i + size by omega, Nat.add_mod_right,
      Nat.mod_eq_of_lt hi]

end Ring
