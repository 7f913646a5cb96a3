import Libiscsi.Lib.Bounded
import Libiscsi.Lib.Outcome

/-!
# What a parser reads

The steps of `Bounded` for a parser that returns what it read, when the allocations succeed. A
number is read with a check, at an offset of type `int`; a byte is read, bytes are copied and an
object is written without one. Where a number stands in data that was put together says where it
is read.
-/

namespace Bounded

/-! ## Steps -/

/-- An offset of type `int`. -/
def offset (n : Nat) : Except Fault Nat := if n < 2 ^ 31 then .ok n else .error .overflow

/-- The number in the `width` bytes at an offset, which is read with a check. -/
def number (d : List UInt8) (width off : Nat) : Except Fault Nat :=
  (offset off).map (uint d width)

/-- The byte at `off`, which is read without a check. -/
def byteAt (d : List UInt8) (off : Nat) : Except Fault Nat :=
  if off < d.length then .ok (d.getD off 0).toNat else .error .readOutside

/-- The `len` bytes at `off`, which are copied without a check. -/
def bytesAt (d : List UInt8) (off len : Nat) : Except Fault (List UInt8) :=
  if len = 0 ∨ off + len ≤ d.length then .ok ((d.drop off).take len) else .error .readOutside

/-- The `len` bytes at `off` of an object of `size` bytes are written. -/
def within (size off len : Nat) : Except Fault Unit :=
  if off + len ≤ size then .ok () else .error .writeOutside

/-- The fields that follow `base`, by their names. -/
def fieldsAt (d : List UInt8) (base : Nat) (fs : List Field) : Except Fault (List (String × Nat)) :=
  fs.mapM fun f => (number d f.width (base + f.off)).map fun v => (f.name, f.part v)

/-- The fields of data that is there by itself. -/
def ownFields (d : List UInt8) (fs : List Field) : List (String × Nat) :=
  fs.map fun f => (f.name, f.part (uint d f.width f.off))

section
variable {d : List UInt8} {width off len size base : Nat}

@[simp] theorem offset_of_lt {n : Nat} (h : n < 2 ^ 31) : offset n = .ok n := if_pos h

@[simp] theorem number_of_lt (h : off < 2 ^ 31) : number d width off = .ok (uint d width off) := by
  rw [number, offset_of_lt h]
  rfl

@[simp] theorem bytesAt_of_le (h : off + len ≤ d.length) :
    bytesAt d off len = .ok ((d.drop off).take len) := if_pos (.inr h)

@[simp] theorem within_of_le (h : off + len ≤ size) : within size off len = .ok () := if_pos h

theorem fieldsAt_of_lt {fs : List Field} (h : FieldsFit base fs) :
    fieldsAt d base fs =
      .ok (fs.map fun f => (f.name, f.part (uint d f.width (base + f.off)))) := by
  refine Outcome.mapM_eq_ok fun f hf => ?_
  rw [number_of_lt (h f hf)]
  rfl

end

/-! ## Where a number stands -/

section
variable {l m : List UInt8} {width off : Nat}

/-- A number behind other bytes. -/
@[simp] theorem uint_append_right (l m : List UInt8) (width off : Nat) :
    uint (l ++ m) width (l.length + off) = uint m width off := by
  unfold uint
  rw [List.length_append, List.drop_length_add_append]
  exact if_congr (by omega) rfl rfl

/-- A number before other bytes. -/
theorem uint_append_left (h : off + width ≤ l.length) :
    uint (l ++ m) width off = uint l width off := by
  unfold uint
  rw [if_pos (by rw [List.length_append]; omega), if_pos h,
    List.drop_append_of_le_length (by omega),
    List.take_append_of_le_length (by rw [List.length_drop]; omega)]

/-- A number that is not all there is zero. -/
theorem uint_of_lt (h : l.length < off + width) : uint l width off = 0 := if_neg (by omega)

/-- A number in an entry of a list of entries of one size. -/
theorem uint_entry {size k : Nat} (hk : k + width ≤ size) :
    ∀ {entries : List (List UInt8)} {head tail e : List UInt8} {i : Nat},
      (∀ e ∈ entries, e.length = size) → entries[i]? = some e →
        uint (head ++ (entries.flatten ++ tail)) width (head.length + (size * i + k)) =
          uint e width k
  | [], _, _, _, _, _, he => by cases he
  | e₀ :: entries, head, tail, e, 0, hsize, he => by
    obtain rfl := Option.some.inj he
    have hlen := hsize e₀ List.mem_cons_self
    rw [Nat.mul_zero, Nat.zero_add, uint_append_right, List.flatten_cons, List.append_assoc]
    exact uint_append_left (by omega)
  | e₀ :: entries, head, tail, e, i + 1, hsize, he => by
    have hlen := hsize e₀ List.mem_cons_self
    have ih := @uint_entry size k hk entries (head ++ e₀) tail e i
      (fun e he => hsize e (List.mem_cons_of_mem _ he)) he
    rw [List.length_append, hlen, List.append_assoc] at ih
    rw [List.flatten_cons, List.append_assoc, ← ih, Nat.mul_succ]
    congr 1
    omega

theorem foldl_beNat (l : List UInt8) (v : Nat) :
    l.foldl (fun v b => v * 256 + b.toNat) v = v * 256 ^ l.length + beNat l := by
  induction l generalizing v with
  | nil => simp [beNat]
  | cons b l ih =>
    have hcons : beNat (b :: l) = (0 * 256 + b.toNat) * 256 ^ l.length + beNat l := ih _
    rw [List.foldl_cons, ih, hcons, List.length_cons, Nat.pow_succ, Nat.add_mul, Nat.zero_mul,
      Nat.zero_add, Nat.mul_assoc, Nat.mul_comm 256, Nat.add_assoc]

/-- A number whose bytes are those of two. -/
theorem uint_add {width' : Nat} (h : off + (width + width') ≤ l.length) :
    uint l (width + width') off =
      uint l width off * 256 ^ width' + uint l width' (off + width) := by
  have htake : (l.drop off).take (width + width') =
      (l.drop off).take width ++ (l.drop (off + width)).take width' := by
    rw [List.take_add, List.drop_drop]
  have hlen : ((l.drop (off + width)).take width').length = width' := by
    rw [List.length_take, List.length_drop]
    omega
  unfold uint
  rw [if_pos h, if_pos (by omega), if_pos (by omega), htake, beNat, List.foldl_append, foldl_beNat,
    hlen]
  rfl

/-- A number in a slice. -/
theorem uint_slice {start size : Nat} (hsize : off + width ≤ size)
    (hstart : start + size ≤ l.length) :
    uint ((l.drop start).take size) width off = uint l width (start + off) := by
  unfold uint
  have hlen : ((l.drop start).take size).length = size := by
    rw [List.length_take, List.length_drop]
    omega
  rw [if_pos (by omega), if_pos (by omega), List.drop_take, List.take_take, List.drop_drop,
    Nat.min_eq_left (by omega)]

/-- The two bytes of a number. -/
def be16 (n : Nat) : List UInt8 := [UInt8.ofNat (n / 256), UInt8.ofNat n]

@[simp] theorem length_be16 (n : Nat) : (be16 n).length = 2 := rfl

theorem beNat_be16 {n : Nat} (h : n < 2 ^ 16) : beNat (be16 n) = n := by
  have hvalue : beNat (be16 n) = (UInt8.ofNat (n / 256)).toNat * 256 + (UInt8.ofNat n).toNat := by
    simp [beNat, be16]
  rw [hvalue, UInt8.toNat_ofNat', UInt8.toNat_ofNat']
  omega

theorem uint_be16 {n : Nat} {l : List UInt8} (h : n < 2 ^ 16) : uint (be16 n ++ l) 2 0 = n := by
  rw [uint_append_left (by rw [length_be16]), uint, if_pos (by rw [length_be16])]
  exact beNat_be16 h

/-- A byte behind other bytes. -/
theorem byteAt_append_right (l m : List UInt8) (off : Nat) :
    byteAt (l ++ m) (l.length + off) = byteAt m off := by
  have hget : (l ++ m).getD (l.length + off) 0 = m.getD off 0 := by
    rw [List.getD_append_right _ _ _ _ (by omega), Nat.add_sub_cancel_left]
  unfold byteAt
  rw [List.length_append, hget]
  exact if_congr (by omega) rfl rfl

/-- Bytes behind other bytes. -/
theorem bytesAt_append_right (l m : List UInt8) (off len : Nat) :
    bytesAt (l ++ m) (l.length + off) len = bytesAt m off len := by
  unfold bytesAt
  rw [List.length_append, List.drop_length_add_append]
  exact if_congr (by omega) rfl rfl

/-- Bytes that are between others. -/
theorem bytesAt_append {l m n : List UInt8} :
    bytesAt (l ++ (m ++ n)) l.length m.length = .ok m := by
  have h := bytesAt_append_right l (m ++ n) 0 m.length
  rw [Nat.add_zero] at h
  rw [h, bytesAt_of_le (by rw [List.length_append]; omega), List.drop_zero, List.take_left]

/-- A number of one byte. -/
theorem uint_one {b : UInt8} {off : Nat} (h : l[off]? = some b) : uint l 1 off = b.toNat := by
  obtain ⟨hlt, hb⟩ := List.getElem?_eq_some_iff.1 h
  unfold uint
  rw [if_pos (by omega), List.drop_eq_getElem_cons hlt, List.take_succ_cons, List.take_zero, hb]
  simp [beNat]

end

end Bounded
