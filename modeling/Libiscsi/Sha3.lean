import Libiscsi.Lib.BlockHash
import Libiscsi.Bytes

/-!
# SHA-3

`lib/sha3.c`. The bytes of a message are added to the state one by one, and the state is permuted
when the rate is full; the end is marked in the state. That is the sponge over the padded blocks of
the message, whatever its pieces are (`sha3_pieces`).
-/

namespace Libiscsi

open BlockHash

/-! ## The permutation -/

/-- `ROTL64`. -/
def rotl64 (x y : UInt64) : UInt64 := (x <<< y) ||| (x >>> (64 - y))

/-- `keccakf_rndc`. -/
def keccakfRndc : List UInt64 :=
  [0x0000000000000001, 0x0000000000008082, 0x800000000000808a, 0x8000000080008000,
   0x000000000000808b, 0x0000000080000001, 0x8000000080008081, 0x8000000000008009,
   0x000000000000008a, 0x0000000000000088, 0x0000000080008009, 0x000000008000000a,
   0x000000008000808b, 0x800000000000008b, 0x8000000000008089, 0x8000000000008003,
   0x8000000000008002, 0x8000000000000080, 0x000000000000800a, 0x800000008000000a,
   0x8000000080008081, 0x8000000000008080, 0x0000000080000001, 0x8000000080008008]

/-- `keccakf_rotc`. -/
def keccakfRotc : List UInt64 :=
  [1, 3, 6, 10, 15, 21, 28, 36, 45, 55, 2, 14, 27, 41, 56, 8, 25, 43, 62, 18, 39, 61, 20, 44]

/-- `keccakf_piln`. -/
def keccakfPiln : List Nat :=
  [10, 7, 11, 17, 18, 3, 5, 16, 8, 21, 24, 4, 15, 23, 19, 13, 12, 2, 20, 14, 22, 9, 6, 1]

/-- Theta. -/
def keccakTheta (st : List UInt64) : List UInt64 :=
  let bc := (List.range 5).map fun i => st.getD i 0 ^^^ st.getD (i + 5) 0 ^^^ st.getD (i + 10) 0 ^^^
    st.getD (i + 15) 0 ^^^ st.getD (i + 20) 0
  (List.range 25).map fun k =>
    st.getD k 0 ^^^ (bc.getD ((k % 5 + 4) % 5) 0 ^^^ rotl64 (bc.getD ((k % 5 + 1) % 5) 0) 1)

/-- Rho and Pi. -/
def keccakRhoPi (st : List UInt64) : List UInt64 :=
  ((keccakfPiln.zip keccakfRotc).foldl
    (fun (stt : List UInt64 × UInt64) jr =>
      (stt.1.set jr.1 (rotl64 stt.2 jr.2), stt.1.getD jr.1 0)) (st, st.getD 1 0)).1

/-- Chi. -/
def keccakChi (st : List UInt64) : List UInt64 :=
  (List.range 25).map fun k =>
    let j := k - k % 5
    st.getD k 0 ^^^ (~~~st.getD (j + (k % 5 + 1) % 5) 0 &&& st.getD (j + (k % 5 + 2) % 5) 0)

/-- Iota. -/
def keccakIota (rndc : UInt64) (st : List UInt64) : List UInt64 := st.set 0 (st.getD 0 0 ^^^ rndc)

/-- The words that the bytes of the state are. -/
def stateWords (b : List UInt8) : List UInt64 :=
  (List.range 25).map fun i => (List.range 8).foldr
    (fun k w => (w <<< 8) ||| (byte b (8 * i + k)).toUInt64) 0

/-- The bytes of the words. -/
def stateBytes (q : List UInt64) : List UInt8 :=
  q.flatMap fun w => (List.range 8).map fun k => (w >>> (8 * UInt64.ofNat k)).toUInt8

/-- `sha3_keccakf`. -/
def sha3Keccakf (b : List UInt8) : List UInt8 :=
  stateBytes (keccakfRndc.foldl
    (fun st rndc => keccakIota rndc (keccakChi (keccakRhoPi (keccakTheta st)))) (stateWords b))

/-! ## The context -/

/-- `sha3_ctx_t`; `b` are the bytes of `st`. -/
structure Sha3Ctx where
  b : List UInt8
  pt : Nat
  rsiz : Nat
  mdlen : Nat
  deriving DecidableEq, Repr

/-- `b[j] ^= x`. -/
def xorAt (b : List UInt8) (j : Nat) (x : UInt8) : List UInt8 := b.modify j (· ^^^ x)

/-- `sha3_init`. -/
def sha3Init (mdlen : Nat) : Sha3Ctx where
  b := List.replicate 200 0
  pt := 0
  rsiz := 200 - 2 * mdlen
  mdlen

/-- A turn of the loop of `sha3_update`. -/
def sha3UpdateByte (c : Sha3Ctx) (x : UInt8) : Sha3Ctx :=
  let b := xorAt c.b c.pt x
  if c.pt + 1 ≥ c.rsiz then { c with b := sha3Keccakf b, pt := 0 } else { c with b, pt := c.pt + 1 }

/-- `sha3_update`. -/
def sha3Update (c : Sha3Ctx) (data : List UInt8) : Sha3Ctx := data.foldl sha3UpdateByte c

/-- `sha3_final`: the digest. -/
def sha3Final (c : Sha3Ctx) : List UInt8 :=
  (sha3Keccakf (xorAt (xorAt c.b c.pt 0x06) (c.rsiz - 1) 0x80)).take c.mdlen

/-- The published digest of the empty message. -/
example : sha3Final (sha3Init 32) =
    [0xa7, 0xff, 0xc6, 0xf8, 0xbf, 0x1e, 0xd7, 0x66, 0x51, 0xc1, 0x47, 0x56, 0xa0, 0x61, 0xd6, 0x62,
      0xf5, 0x80, 0xff, 0x4d, 0xe4, 0x3b, 0x49, 0xfa, 0x82, 0xd8, 0x0a, 0x4b, 0x80, 0xf8, 0x43,
      0x4a] := by
  decide +kernel

/-! ## The sponge -/

/-- A block is added to the beginning of the state. -/
def xorInto : List UInt8 → List UInt8 → List UInt8
  | s :: st, x :: block => (s ^^^ x) :: xorInto st block
  | st, _ => st

/-- A block is taken in. -/
def sha3Absorb (st block : List UInt8) : List UInt8 := sha3Keccakf (xorInto st block)

/-- The end of a message of `n` bytes: the mark of SHA-3, and the last bit of the rate. -/
def sha3Padding (rsiz n : Nat) : List UInt8 :=
  if n % rsiz + 1 = rsiz then [0x86]
  else 0x06 :: List.replicate (rsiz - 2 - n % rsiz) 0 ++ [0x80]

theorem xorInto_nil (st : List UInt8) : xorInto st [] = st := by
  cases st <;> rfl

/-- One more byte of a block. -/
theorem xorInto_concat (st block : List UInt8) (x : UInt8) :
    xorInto st (block ++ [x]) = xorAt (xorInto st block) block.length x := by
  induction block generalizing st with
  | nil =>
    cases st with
    | nil => rfl
    | cons s st => exact congrArg (fun l => (s ^^^ x) :: l) (xorInto_nil st)
  | cons y block ih =>
    cases st with
    | nil => rfl
    | cons s st => exact congrArg (fun l => (s ^^^ y) :: l) (ih st)

/-- Zeros change nothing. -/
theorem xorInto_zeros (st block : List UInt8) (k : Nat) :
    xorInto st (block ++ List.replicate k 0) = xorInto st block := by
  induction k with
  | zero => rw [List.replicate_zero, List.append_nil]
  | succ k ih =>
    have hzero : ∀ (l : List UInt8) (j : Nat), xorAt l j 0 = l := by
      intro l j
      have hid : (fun x : UInt8 => x ^^^ 0) = id := funext fun x => UInt8.xor_zero
      unfold xorAt
      rw [hid, List.modify_id]
    rw [List.replicate_succ', ← List.append_assoc, xorInto_concat, ih, hzero]

/-- The context has added what came of the message to the state, which has `n` bytes so far. -/
structure Sha3Ctx.Holds (c : Sha3Ctx) (b : Buffered (List UInt8) UInt8) (n mdlen : Nat) : Prop where
  state : c.b = xorInto b.state b.block
  pt : c.pt = b.block.length
  count : b.block.length = n % (200 - 2 * mdlen)
  rsiz : c.rsiz = 200 - 2 * mdlen
  mdlen : c.mdlen = mdlen

namespace Sha3Ctx.Holds
variable {c : Sha3Ctx} {b : Buffered (List UInt8) UInt8} {n mdlen : Nat}

theorem init (mdlen : Nat) : (sha3Init mdlen).Holds ⟨List.replicate 200 0, []⟩ 0 mdlen :=
  ⟨(xorInto_nil _).symm, rfl, (Nat.zero_mod _).symm, rfl, rfl⟩

/-- **A byte of the message.** -/
theorem updateByte (h : c.Holds b n mdlen) (hmd : mdlen < 100) (x : UInt8) :
    (sha3UpdateByte c x).Holds (push (200 - 2 * mdlen) sha3Absorb b x) (n + 1) mdlen := by
  have hshort := Nat.mod_lt n (by omega : 0 < 200 - 2 * mdlen)
  have hcount := h.count
  have hadd : xorAt c.b c.pt x = xorInto b.state (b.block ++ [x]) := by
    rw [xorInto_concat, ← h.state, ← h.pt]
  unfold sha3UpdateByte push
  simp only
  rw [hadd, h.pt, h.rsiz]
  by_cases hfull : b.block.length + 1 = 200 - 2 * mdlen
  · rw [if_pos hfull.ge, if_pos hfull]
    refine ⟨(xorInto_nil _).symm, rfl, ?_, rfl, h.mdlen⟩
    change 0 = _
    rw [Nat.add_mod, ← hcount]
    rcases Nat.lt_or_ge 1 (200 - 2 * mdlen) with hone | hone
    · rw [Nat.mod_eq_of_lt hone, hfull, Nat.mod_self]
    · have heq : 200 - 2 * mdlen = 1 := by omega
      rw [heq, Nat.mod_one]
  · rw [if_neg (by omega), if_neg hfull]
    have hlength : (b.block ++ [x]).length = b.block.length + 1 := by
      rw [List.length_append, List.length_singleton]
    refine ⟨rfl, hlength.symm, ?_, rfl, h.mdlen⟩
    change (b.block ++ [x]).length = _
    rw [hlength, Nat.add_mod, ← hcount, Nat.mod_eq_of_lt (by omega : 1 < 200 - 2 * mdlen),
      Nat.mod_eq_of_lt (by omega)]

/-- **`sha3_update`.** -/
theorem update (h : c.Holds b n mdlen) (hmd : mdlen < 100) (data : List UInt8) :
    (sha3Update c data).Holds (absorb (200 - 2 * mdlen) sha3Absorb b data) (n + data.length)
      mdlen := by
  unfold sha3Update
  induction data generalizing c b n with
  | nil => exact h
  | cons x data ih =>
    have hnext := ih (h.updateByte hmd x)
    rw [Nat.add_assoc, Nat.add_comm 1] at hnext
    exact hnext

theorem update_pieces (h : c.Holds b n mdlen) (hmd : mdlen < 100) (pieces : List (List UInt8)) :
    (pieces.foldl sha3Update c).Holds (absorb (200 - 2 * mdlen) sha3Absorb b pieces.flatten)
      (n + pieces.flatten.length) mdlen := by
  induction pieces generalizing c b n with
  | nil => exact h
  | cons piece pieces ih =>
    have hnext := ih (h.update hmd piece)
    rw [List.foldl_cons, List.flatten_cons, absorb_append, List.length_append, ← Nat.add_assoc]
    exact hnext

/-- **`sha3_final`** takes in the padding. -/
theorem final (h : c.Holds b n mdlen) (hmd : mdlen < 100) : sha3Final c =
    (absorb (200 - 2 * mdlen) sha3Absorb b (sha3Padding (200 - 2 * mdlen) n)).state.take mdlen := by
  have hshort := Nat.mod_lt n (by omega : 0 < 200 - 2 * mdlen)
  have hcount := h.count
  unfold sha3Final sha3Padding
  rw [h.mdlen, h.rsiz, h.pt, h.state]
  by_cases hone : n % (200 - 2 * mdlen) + 1 = 200 - 2 * mdlen
  · have hboth : (fun x : UInt8 => x ^^^ 0x80) ∘ (fun x : UInt8 => x ^^^ 0x06) =
        fun x : UInt8 => x ^^^ 0x86 := by
      funext x
      change x ^^^ 0x06 ^^^ 0x80 = x ^^^ 0x86
      rw [UInt8.xor_assoc]
      rfl
    have hplace : 200 - 2 * mdlen - 1 = b.block.length := by omega
    rw [if_pos hone, absorb_of_eq (List.cons_ne_nil _ _)
      (by rw [List.length_singleton]; omega), hplace]
    unfold sha3Absorb
    rw [xorInto_concat]
    unfold xorAt
    rw [List.modify_modify_eq, hboth]
  · have hlength : (b.block ++ [0x06] ++
        List.replicate (200 - 2 * mdlen - 2 - n % (200 - 2 * mdlen)) 0).length =
        200 - 2 * mdlen - 1 := by
      rw [List.length_append, List.length_append, List.length_singleton, List.length_replicate]
      omega
    have hsplit : b.block ++ (0x06 ::
        List.replicate (200 - 2 * mdlen - 2 - n % (200 - 2 * mdlen)) 0 ++ [0x80]) =
        b.block ++ [0x06] ++ List.replicate (200 - 2 * mdlen - 2 - n % (200 - 2 * mdlen)) 0 ++
          [0x80] := by
      rw [List.append_assoc, List.append_assoc]
      rfl
    rw [if_neg hone, absorb_of_eq (by simp) ?_]
    · unfold sha3Absorb
      rw [hsplit, xorInto_concat, hlength, xorInto_zeros, xorInto_concat]
    · rw [List.length_append, List.length_cons, List.length_replicate, List.length_singleton]
      omega

end Sha3Ctx.Holds

/-- With its end a message has full blocks. -/
theorem length_sha3Padding {rsiz : Nat} (hpos : 0 < rsiz) (n : Nat) :
    n + (sha3Padding rsiz n).length = (n / rsiz + 1) * rsiz := by
  have hshort := Nat.mod_lt n hpos
  have hdiv := Nat.div_add_mod n rsiz
  rw [Nat.add_mul, Nat.one_mul, Nat.mul_comm (n / rsiz)]
  unfold sha3Padding
  by_cases hone : n % rsiz + 1 = rsiz
  · rw [if_pos hone, List.length_singleton]
    omega
  · rw [if_neg hone, List.length_append, List.length_cons, List.length_replicate,
      List.length_singleton]
    omega

/-- The digest is that of what the pieces make. -/
theorem sha3_absorb {mdlen : Nat} (hmd : mdlen < 100) (pieces : List (List UInt8)) :
    sha3Final (pieces.foldl sha3Update (sha3Init mdlen)) =
      (absorb (200 - 2 * mdlen) sha3Absorb ⟨List.replicate 200 0, []⟩
        (pieces.flatten ++ sha3Padding (200 - 2 * mdlen) pieces.flatten.length)).state.take
        mdlen := by
  have hholds := (Sha3Ctx.Holds.init mdlen).update_pieces hmd pieces
  rw [Nat.zero_add] at hholds
  rw [hholds.final hmd, absorb_append]

/-- **The pieces do not matter.** Any message, in any pieces, has the digest of its padded blocks
taken in one after the other. -/
theorem sha3_pieces {mdlen : Nat} (hmd : mdlen < 100) (pieces : List (List UInt8)) :
    ∃ blocks, Blocks (200 - 2 * mdlen) blocks
        (pieces.flatten ++ sha3Padding (200 - 2 * mdlen) pieces.flatten.length) ∧
      sha3Final (pieces.foldl sha3Update (sha3Init mdlen)) =
        (blocks.foldl sha3Absorb (List.replicate 200 0)).take mdlen := by
  have hpos : 0 < 200 - 2 * mdlen := by omega
  have hlength : (pieces.flatten ++
      sha3Padding (200 - 2 * mdlen) pieces.flatten.length).length =
      (pieces.flatten.length / (200 - 2 * mdlen) + 1) * (200 - 2 * mdlen) := by
    rw [List.length_append, length_sha3Padding hpos]
  obtain ⟨blocks, hblocks, habsorb⟩ :=
    @absorb_message _ _ _ sha3Absorb _ (List.replicate 200 0) _ hpos hlength
  exact ⟨blocks, hblocks, by rw [sha3_absorb hmd, habsorb]⟩

/-- SHA3-256 of a message in two pieces. -/
theorem sha3_pieces_two :
    ∃ blocks, Blocks (200 - 2 * 32) blocks
        ([[1], [2, 3]].flatten ++ sha3Padding (200 - 2 * 32) [[1], [2, 3]].flatten.length) ∧
      sha3Final ([[1], [2, 3]].foldl sha3Update (sha3Init 32)) =
        (blocks.foldl sha3Absorb (List.replicate 200 0)).take 32 :=
  sha3_pieces (by decide) [[1], [2, 3]]

end Libiscsi
