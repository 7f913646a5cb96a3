import Libiscsi.Lib.BlockHash
import Libiscsi.Bytes

/-!
# MD5

`lib/md5.c`. The context holds 64 bytes of input of which those of the last block are still to be
hashed; `MD5Update` copies to where these end and transforms full blocks. Whatever the pieces are,
the digest is that of the whole message (`md5_pieces`).
-/

namespace Libiscsi

open BlockHash

/-! ## Words -/

/-- The four bytes of a word, the least significant first. -/
def leBytes (v : UInt32) : List UInt8 :=
  [v.toUInt8, (v >>> 8).toUInt8, (v >>> 16).toUInt8, (v >>> 24).toUInt8]

/-- The word that begins at a byte, the least significant byte first. -/
def leWord (l : List UInt8) (i : Nat) : UInt32 :=
  (byte l i).toUInt32 ||| (byte l (i + 1)).toUInt32 <<< 8 ||| (byte l (i + 2)).toUInt32 <<< 16 |||
    (byte l (i + 3)).toUInt32 <<< 24

/-- `memcpy` or `memset` to a place in a buffer. -/
def writeAt (buf : List UInt8) (i : Nat) (src : List UInt8) : List UInt8 :=
  buf.take i ++ src ++ buf.drop (i + src.length)

/-! ## The transformation -/

/-- `buf`. -/
structure Md5State where
  a : UInt32
  b : UInt32
  c : UInt32
  d : UInt32
  deriving DecidableEq, Repr

/-- `F1`. -/
def md5F1 (x y z : UInt32) : UInt32 := z ^^^ (x &&& (y ^^^ z))

/-- The choice that `F1` is, as the comment in the source has it. -/
theorem md5F1_eq (x y z : UInt32) : md5F1 x y z = (x &&& y) ||| (~~~x &&& z) := by
  refine UInt32.toBitVec_inj.1 (BitVec.eq_of_getLsbD_eq fun i hi => ?_)
  unfold md5F1
  simp only [UInt32.toBitVec_xor, UInt32.toBitVec_and, UInt32.toBitVec_or, UInt32.toBitVec_not,
    BitVec.getLsbD_xor, BitVec.getLsbD_and, BitVec.getLsbD_or, BitVec.getLsbD_not]
  rw [decide_eq_true hi]
  cases x.toBitVec.getLsbD i <;> cases y.toBitVec.getLsbD i <;> cases z.toBitVec.getLsbD i <;> rfl

/-- `F2`. -/
def md5F2 (x y z : UInt32) : UInt32 := md5F1 z x y

/-- `F3`. -/
def md5F3 (x y z : UInt32) : UInt32 := x ^^^ y ^^^ z

/-- `F4`. -/
def md5F4 (x y z : UInt32) : UInt32 := y ^^^ (x ||| ~~~z)

/-- `MD5STEP`: the new value of `w`. -/
def md5Step (f : UInt32 → UInt32 → UInt32 → UInt32) (w x y z input : UInt32) (s : UInt32) :
    UInt32 :=
  let w := w + f x y z + input
  ((w <<< s) ||| (w >>> (32 - s))) + x

/-- A line of `MD5Transform`: which word of the input, which constant, and how far. -/
structure Md5Line where
  word : Nat
  constant : UInt32
  shift : UInt32

/-- The lines with `F1`. -/
def md5Round1 : List Md5Line :=
  [⟨0, 0xd76aa478, 7⟩, ⟨1, 0xe8c7b756, 12⟩, ⟨2, 0x242070db, 17⟩, ⟨3, 0xc1bdceee, 22⟩,
   ⟨4, 0xf57c0faf, 7⟩, ⟨5, 0x4787c62a, 12⟩, ⟨6, 0xa8304613, 17⟩, ⟨7, 0xfd469501, 22⟩,
   ⟨8, 0x698098d8, 7⟩, ⟨9, 0x8b44f7af, 12⟩, ⟨10, 0xffff5bb1, 17⟩, ⟨11, 0x895cd7be, 22⟩,
   ⟨12, 0x6b901122, 7⟩, ⟨13, 0xfd987193, 12⟩, ⟨14, 0xa679438e, 17⟩, ⟨15, 0x49b40821, 22⟩]

/-- The lines with `F2`. -/
def md5Round2 : List Md5Line :=
  [⟨1, 0xf61e2562, 5⟩, ⟨6, 0xc040b340, 9⟩, ⟨11, 0x265e5a51, 14⟩, ⟨0, 0xe9b6c7aa, 20⟩,
   ⟨5, 0xd62f105d, 5⟩, ⟨10, 0x02441453, 9⟩, ⟨15, 0xd8a1e681, 14⟩, ⟨4, 0xe7d3fbc8, 20⟩,
   ⟨9, 0x21e1cde6, 5⟩, ⟨14, 0xc33707d6, 9⟩, ⟨3, 0xf4d50d87, 14⟩, ⟨8, 0x455a14ed, 20⟩,
   ⟨13, 0xa9e3e905, 5⟩, ⟨2, 0xfcefa3f8, 9⟩, ⟨7, 0x676f02d9, 14⟩, ⟨12, 0x8d2a4c8a, 20⟩]

/-- The lines with `F3`. -/
def md5Round3 : List Md5Line :=
  [⟨5, 0xfffa3942, 4⟩, ⟨8, 0x8771f681, 11⟩, ⟨11, 0x6d9d6122, 16⟩, ⟨14, 0xfde5380c, 23⟩,
   ⟨1, 0xa4beea44, 4⟩, ⟨4, 0x4bdecfa9, 11⟩, ⟨7, 0xf6bb4b60, 16⟩, ⟨10, 0xbebfbc70, 23⟩,
   ⟨13, 0x289b7ec6, 4⟩, ⟨0, 0xeaa127fa, 11⟩, ⟨3, 0xd4ef3085, 16⟩, ⟨6, 0x04881d05, 23⟩,
   ⟨9, 0xd9d4d039, 4⟩, ⟨12, 0xe6db99e5, 11⟩, ⟨15, 0x1fa27cf8, 16⟩, ⟨2, 0xc4ac5665, 23⟩]

/-- The lines with `F4`. -/
def md5Round4 : List Md5Line :=
  [⟨0, 0xf4292244, 6⟩, ⟨7, 0x432aff97, 10⟩, ⟨14, 0xab9423a7, 15⟩, ⟨5, 0xfc93a039, 21⟩,
   ⟨12, 0x655b59c3, 6⟩, ⟨3, 0x8f0ccc92, 10⟩, ⟨10, 0xffeff47d, 15⟩, ⟨1, 0x85845dd1, 21⟩,
   ⟨8, 0x6fa87e4f, 6⟩, ⟨15, 0xfe2ce6e0, 10⟩, ⟨6, 0xa3014314, 15⟩, ⟨13, 0x4e0811a1, 21⟩,
   ⟨4, 0xf7537e82, 6⟩, ⟨11, 0xbd3af235, 10⟩, ⟨2, 0x2ad7d2bb, 15⟩, ⟨9, 0xeb86d391, 21⟩]

/-- The lines of a round. Each changes one of the four variables, and the next one the variable
before it: `a`, `d`, `c`, `b`, and again. -/
def md5Lines (f : UInt32 → UInt32 → UInt32 → UInt32) (input : List UInt8) (st : Md5State)
    (lines : List Md5Line) : Md5State :=
  lines.foldl (fun st line =>
    { a := st.d
      b := md5Step f st.a st.b st.c st.d (leWord input (4 * line.word) + line.constant) line.shift
      c := st.b
      d := st.c }) st

/-- `MD5Transform`. -/
def md5Transform (st : Md5State) (input : List UInt8) : Md5State :=
  let new := md5Lines md5F4 input (md5Lines md5F3 input (md5Lines md5F2 input
    (md5Lines md5F1 input st md5Round1) md5Round2) md5Round3) md5Round4
  { a := st.a + new.a, b := st.b + new.b, c := st.c + new.c, d := st.d + new.d }

/-! ## The context -/

/-- `struct MD5Context`; `input` is `in`. -/
structure Md5Context where
  buf : Md5State
  bytes0 : UInt32
  bytes1 : UInt32
  input : List UInt8
  deriving DecidableEq, Repr

/-- The constants of `MD5Init`. -/
def md5Start : Md5State := ⟨0x67452301, 0xefcdab89, 0x98badcfe, 0x10325476⟩

/-- `MD5Init`, which leaves `in` as it is. -/
def md5Init (input : List UInt8) : Md5Context := ⟨md5Start, 0, 0, input⟩

/-- The loop over full blocks, and what is left of the buffer. The number bounds the turns. -/
def md5Blocks : Nat → Md5Context → List UInt8 → Md5Context × List UInt8
  | 0, ctx, buf => (ctx, buf)
  | fuel + 1, ctx, buf =>
    if 64 ≤ buf.length then
      let input := writeAt ctx.input 0 (buf.take 64)
      md5Blocks fuel { ctx with input, buf := md5Transform ctx.buf input } (buf.drop 64)
    else (ctx, buf)

/-- `MD5Update`. -/
def md5Update (ctx : Md5Context) (buf : List UInt8) : Md5Context :=
  let t := ctx.bytes0
  let len := UInt32.ofNat buf.length
  let ctx := { ctx with
    bytes0 := t + len
    bytes1 := if t + len < t then ctx.bytes1 + 1 else ctx.bytes1 }
  let room := 64 - (t &&& 0x3f).toNat
  if room > buf.length then { ctx with input := writeAt ctx.input (64 - room) buf }
  else
    let input := writeAt ctx.input (64 - room) (buf.take room)
    let (ctx, buf) := md5Blocks buf.length
      { ctx with input, buf := md5Transform ctx.buf input } (buf.drop room)
    { ctx with input := writeAt ctx.input 0 buf }

/-- `MD5Final`: the digest. -/
def md5Final (ctx : Md5Context) : List UInt8 :=
  let count := (ctx.bytes0 &&& 0x3f).toNat
  let input := writeAt ctx.input count [0x80]
  let (buf, input) :=
    if 56 < count + 1 then
      -- the padding needs another block
      let input := writeAt input (count + 1) (List.replicate (64 - (count + 1)) 0)
      (md5Transform ctx.buf input, writeAt input 0 (List.replicate 56 0))
    else (ctx.buf, writeAt input (count + 1) (List.replicate (56 - (count + 1)) 0))
  let input := writeAt input 56
    (leBytes (ctx.bytes0 <<< 3) ++ leBytes (ctx.bytes1 <<< 3 ||| ctx.bytes0 >>> 29))
  let buf := md5Transform buf input
  leBytes buf.a ++ leBytes buf.b ++ leBytes buf.c ++ leBytes buf.d

/-! ## The digest of a message -/

/-- What follows a message of `n` bytes: a one bit, zeros, and its length in bits as a number of 64
bits. -/
def md5Padding (n : Nat) : List UInt8 :=
  0x80 :: List.replicate (zeros 64 8 n) 0 ++
    (leBytes (UInt32.ofNat (8 * n)) ++ leBytes (UInt32.ofNat (8 * n / 2 ^ 32)))

/-- The four words of a state. -/
def Md5State.digest (st : Md5State) : List UInt8 :=
  leBytes st.a ++ leBytes st.b ++ leBytes st.c ++ leBytes st.d

/-- The published digest of the empty message. -/
example : md5Final (md5Init (List.replicate 64 0)) =
    [0xd4, 0x1d, 0x8c, 0xd9, 0x8f, 0x00, 0xb2, 0x04, 0xe9, 0x80, 0x09, 0x98, 0xec, 0xf8, 0x42,
      0x7e] := by
  decide +kernel

/-! ## Pieces -/

section
variable {buf src : List UInt8} {i : Nat}

theorem length_writeAt (h : i + src.length ≤ buf.length) :
    (writeAt buf i src).length = buf.length := by
  unfold writeAt
  rw [List.length_append, List.length_append, List.length_take, List.length_drop]
  omega

theorem take_writeAt (h : i ≤ buf.length) :
    (writeAt buf i src).take (i + src.length) = buf.take i ++ src := by
  have hlength : (buf.take i ++ src).length = i + src.length := by
    rw [List.length_append, List.length_take]
    omega
  unfold writeAt
  rw [← hlength, List.take_left]

/-- What is written up to the end of the buffer. -/
theorem writeAt_end (h : i + src.length = buf.length) : writeAt buf i src = buf.take i ++ src := by
  have htake := @take_writeAt buf src i (by omega)
  rw [← htake, h, ← length_writeAt h.le, List.take_length]

/-- What is written behind what was written before. -/
theorem writeAt_next {src' : List UInt8} (h : i ≤ buf.length) :
    writeAt (writeAt buf i src) (i + src.length) src' = writeAt buf i (src ++ src') := by
  have hdrop : (writeAt buf i src).drop (i + src.length + src'.length) =
      buf.drop (i + (src.length + src'.length)) := by
    have hlength : (buf.take i ++ src).length = i + src.length := by
      rw [List.length_append, List.length_take]
      omega
    unfold writeAt
    rw [← hlength, ← List.drop_drop, List.drop_left, List.drop_drop, hlength]
    congr 1
    omega
  have htake := @take_writeAt buf src i h
  calc writeAt (writeAt buf i src) (i + src.length) src'
      = (writeAt buf i src).take (i + src.length) ++ src' ++
          (writeAt buf i src).drop (i + src.length + src'.length) := rfl
    _ = writeAt buf i (src ++ src') := by
      rw [htake, hdrop]
      unfold writeAt
      rw [List.length_append, List.append_assoc (buf.take i)]

/-- What is written over the whole buffer. -/
theorem writeAt_all (h : src.length = buf.length) : writeAt buf 0 src = src := by
  rw [writeAt_end (by omega), List.take_zero, List.nil_append]

end

/-- The context has hashed and kept what came of the message, which has `n` bytes so far. -/
structure Md5Context.Holds (ctx : Md5Context) (b : Buffered Md5State UInt8) (n : Nat) : Prop where
  buf : ctx.buf = b.state
  size : ctx.input.length = 64
  block : ctx.input.take b.block.length = b.block
  count : b.block.length = n % 64
  bytes0 : ctx.bytes0 = UInt32.ofNat n
  bytes1 : ctx.bytes1 = UInt32.ofNat (n / 2 ^ 32)

namespace Md5Context.Holds
variable {ctx : Md5Context} {b : Buffered Md5State UInt8} {n : Nat} {buf : List UInt8}

theorem init {input : List UInt8} (h : input.length = 64) :
    (md5Init input).Holds ⟨md5Start, []⟩ 0 :=
  ⟨rfl, h, rfl, rfl, rfl, rfl⟩

/-- `bytes[0] & 0x3f`. -/
theorem low (h : ctx.Holds b n) : (ctx.bytes0 &&& 0x3f).toNat = b.block.length := by
  rw [h.bytes0, h.count, UInt32.toNat_and, UInt32.toNat_ofNat']
  change n % 2 ^ 32 &&& 2 ^ 6 - 1 = _
  rw [Nat.and_two_pow_sub_one_eq_mod]
  omega

theorem short (h : ctx.Holds b n) : b.block.length < 64 := by
  rw [h.count]
  exact Nat.mod_lt _ (by decide)

/-- The count goes on, with a carry. -/
theorem counted (h : ctx.Holds b n) {len : Nat} (hlen : len < 2 ^ 32) :
    ctx.bytes0 + UInt32.ofNat len = UInt32.ofNat (n + len) ∧
      (if ctx.bytes0 + UInt32.ofNat len < ctx.bytes0 then ctx.bytes1 + 1 else ctx.bytes1) =
        UInt32.ofNat ((n + len) / 2 ^ 32) := by
  have hsum : ctx.bytes0 + UInt32.ofNat len = UInt32.ofNat (n + len) := by
    rw [h.bytes0, ← UInt32.toNat_inj]
    simp only [UInt32.toNat_add, UInt32.toNat_ofNat']
    omega
  refine ⟨hsum, ?_⟩
  have hcarry : ctx.bytes0 + UInt32.ofNat len < ctx.bytes0 ↔ 2 ^ 32 ≤ n % 2 ^ 32 + len := by
    rw [hsum, h.bytes0, UInt32.lt_iff_toNat_lt, UInt32.toNat_ofNat', UInt32.toNat_ofNat']
    omega
  rw [h.bytes1, ← UInt32.toNat_inj]
  by_cases hover : 2 ^ 32 ≤ n % 2 ^ 32 + len
  · rw [if_pos (hcarry.2 hover)]
    simp only [UInt32.toNat_add, UInt32.toNat_ofNat']
    have hone : (1 : UInt32).toNat = 1 := rfl
    rw [hone]
    omega
  · rw [if_neg (mt hcarry.1 hover), UInt32.toNat_ofNat', UInt32.toNat_ofNat']
    omega

end Md5Context.Holds

/-- The loop hashes full blocks and leaves less than one. -/
theorem md5Blocks_spec {fuel : Nat} {ctx : Md5Context} {buf : List UInt8}
    (hsize : ctx.input.length = 64) (hfuel : buf.length ≤ fuel) :
    ∃ ctx' rest, md5Blocks fuel ctx buf = (ctx', rest) ∧ rest.length < 64 ∧
      ctx'.input.length = 64 ∧ ctx'.bytes0 = ctx.bytes0 ∧ ctx'.bytes1 = ctx.bytes1 ∧
      absorb 64 md5Transform ⟨ctx.buf, []⟩ buf = ⟨ctx'.buf, rest⟩ := by
  induction fuel generalizing ctx buf with
  | zero =>
    obtain rfl := List.length_eq_zero_iff.1 (Nat.le_zero.1 hfuel)
    exact ⟨ctx, [], rfl, by decide, hsize, rfl, rfl, rfl⟩
  | succ fuel ih =>
    unfold md5Blocks
    by_cases hfull : 64 ≤ buf.length
    · rw [if_pos hfull]
      have htake : (buf.take 64).length = ctx.input.length := by
        rw [List.length_take, hsize]
        omega
      simp only [writeAt_all htake]
      have hnext := @ih { ctx with
          input := buf.take 64, buf := md5Transform ctx.buf (buf.take 64) } (buf.drop 64)
        (htake.trans hsize) (by rw [List.length_drop]; omega)
      obtain ⟨ctx', rest, hrun, hrest, hinput, h0, h1, habsorb⟩ := hnext
      refine ⟨ctx', rest, hrun, hrest, hinput, h0, h1, ?_⟩
      have hne : buf.take 64 ≠ [] := List.ne_nil_of_length_pos (by rw [htake, hsize]; decide)
      have hblock : ([] : List UInt8).length + (buf.take 64).length = 64 := by
        rw [htake, hsize]
        rfl
      rw [← List.take_append_drop 64 buf, absorb_append, absorb_of_eq hne hblock]
      exact habsorb
    · rw [if_neg hfull]
      refine ⟨ctx, buf, rfl, by omega, hsize, rfl, rfl, ?_⟩
      rw [absorb_of_lt (by simp; omega)]
      rfl

/-- **`MD5Update`.** -/
theorem Md5Context.Holds.update {ctx : Md5Context} {b : Buffered Md5State UInt8} {n : Nat}
    {buf : List UInt8} (h : ctx.Holds b n) (hlen : buf.length < 2 ^ 32) :
    (md5Update ctx buf).Holds (absorb 64 md5Transform b buf) (n + buf.length) := by
  obtain ⟨h0, h1⟩ := h.counted hlen
  have hshort := h.short
  have hcount : (absorb 64 md5Transform b buf).block.length = (n + buf.length) % 64 := by
    rw [length_block hshort, h.count]
    omega
  have hplace : 64 - (64 - b.block.length) = b.block.length := by omega
  unfold md5Update
  simp only
  rw [h.low, h1, h0, hplace]
  by_cases hroom : 64 - b.block.length > buf.length
  · rw [if_pos hroom]
    rw [absorb_of_lt (by omega)] at hcount ⊢
    refine ⟨h.buf, ?_, ?_, hcount, rfl, rfl⟩
    · exact (length_writeAt (by rw [h.size]; omega)).trans h.size
    · have htake := @take_writeAt ctx.input buf b.block.length (by rw [h.size]; omega)
      rw [h.block] at htake
      rw [List.length_append]
      exact htake
  · rw [if_neg hroom]
    have hpart : (buf.take (64 - b.block.length)).length = 64 - b.block.length := by
      rw [List.length_take]
      omega
    have hinput : writeAt ctx.input b.block.length (buf.take (64 - b.block.length)) =
        b.block ++ buf.take (64 - b.block.length) := by
      rw [writeAt_end (by rw [hpart, h.size]; omega), h.block]
    have hfirst : absorb 64 md5Transform b (buf.take (64 - b.block.length)) =
        ⟨md5Transform ctx.buf (b.block ++ buf.take (64 - b.block.length)), []⟩ := by
      rw [h.buf]
      exact absorb_of_eq (List.ne_nil_of_length_pos (by omega)) (by omega)
    have hsize : (b.block ++ buf.take (64 - b.block.length)).length = 64 := by
      rw [List.length_append, hpart]
      omega
    obtain ⟨ctx', rest, hrun, hrest, hinput', h0', h1', habsorb⟩ :=
      @md5Blocks_spec buf.length { ctx with
        bytes0 := UInt32.ofNat (n + buf.length)
        bytes1 := UInt32.ofNat ((n + buf.length) / 2 ^ 32)
        input := b.block ++ buf.take (64 - b.block.length)
        buf := md5Transform ctx.buf (b.block ++ buf.take (64 - b.block.length)) }
        (buf.drop (64 - b.block.length)) hsize (by rw [List.length_drop]; omega)
    have hall : absorb 64 md5Transform b buf = ⟨ctx'.buf, rest⟩ := by
      rw [← List.take_append_drop (64 - b.block.length) buf, absorb_append, hfirst]
      exact habsorb
    rw [hinput, hrun]
    rw [hall] at hcount ⊢
    refine ⟨rfl, ?_, ?_, hcount, h0', h1'⟩
    · exact (@length_writeAt ctx'.input rest 0 (by rw [hinput']; omega)).trans hinput'
    · have htake := @take_writeAt ctx'.input rest 0 (Nat.zero_le _)
      rw [Nat.zero_add] at htake
      exact htake

/-- The number of bits, in two words. -/
theorem md5_bits (n : Nat) : UInt32.ofNat n <<< 3 = UInt32.ofNat (8 * n) ∧
    (UInt32.ofNat (n / 2 ^ 32) <<< 3 ||| UInt32.ofNat n >>> 29) =
      UInt32.ofNat (8 * n / 2 ^ 32) := by
  constructor
  · rw [← UInt32.toNat_inj]
    simp only [UInt32.toNat_shiftLeft, UInt32.toNat_ofNat']
    rw [show (3 : UInt32).toNat % 32 = 3 from rfl, Nat.shiftLeft_eq]
    omega
  · rw [← UInt32.toNat_inj]
    simp only [UInt32.toNat_or, UInt32.toNat_shiftLeft, UInt32.toNat_shiftRight,
      UInt32.toNat_ofNat']
    rw [show (3 : UInt32).toNat % 32 = 3 from rfl, show (29 : UInt32).toNat % 32 = 29 from rfl,
      Nat.shiftRight_eq_div_pow]
    have hlow : n % 2 ^ 32 / 2 ^ 29 < 2 ^ 3 := by omega
    have hhigh : (n / 2 ^ 32 % 2 ^ 32) <<< 3 % 2 ^ 32 = (n / 2 ^ 32 % 2 ^ 29) <<< 3 := by
      rw [Nat.shiftLeft_eq, Nat.shiftLeft_eq]
      omega
    rw [hhigh, ← Nat.shiftLeft_add_eq_or_of_lt hlow, Nat.shiftLeft_eq]
    omega

/-! ## The padding -/

section
variable {buf block bits : List UInt8}

/-- The mark, zeros and the length, where they fit behind the rest of the message. -/
theorem final_block (hsize : buf.length = 64) (hblock : buf.take block.length = block)
    (hbits : bits.length = 8) (h : block.length < 56) :
    writeAt (writeAt (writeAt buf block.length [0x80]) (block.length + 1)
        (List.replicate (56 - (block.length + 1)) 0)) 56 bits =
      block ++ (0x80 :: List.replicate (56 - (block.length + 1)) 0 ++ bits) := by
  have hmark := @writeAt_next buf [0x80] block.length
    (List.replicate (56 - (block.length + 1)) 0) (by omega)
  have hfill : (0x80 :: List.replicate (56 - (block.length + 1)) (0 : UInt8)).length =
      56 - block.length := by
    rw [List.length_cons, List.length_replicate]
    omega
  have hnext := @writeAt_next buf (0x80 :: List.replicate (56 - (block.length + 1)) 0)
    block.length bits (by omega)
  have hplace : block.length + (56 - block.length) = 56 := by omega
  rw [hfill, hplace] at hnext
  refine (congrArg (writeAt · 56 bits) hmark).trans (hnext.trans ?_)
  rw [writeAt_end (by rw [List.length_append, hfill]; omega), hblock]

/-- The mark and zeros up to the end of the block. -/
theorem full_block (hsize : buf.length = 64) (hblock : buf.take block.length = block)
    (h : block.length < 64) :
    writeAt (writeAt buf block.length [0x80]) (block.length + 1)
        (List.replicate (64 - (block.length + 1)) 0) =
      block ++ 0x80 :: List.replicate (64 - (block.length + 1)) 0 := by
  have hmark := @writeAt_next buf [0x80] block.length
    (List.replicate (64 - (block.length + 1)) 0) (by omega)
  refine hmark.trans ?_
  change writeAt buf block.length (0x80 :: List.replicate (64 - (block.length + 1)) 0) = _
  rw [writeAt_end (by rw [List.length_cons, List.length_replicate]; omega), hblock]

/-- Zeros and the length in a block of their own. -/
theorem last_block (hsize : buf.length = 64) (hbits : bits.length = 8) :
    writeAt (writeAt buf 0 (List.replicate 56 0)) 56 bits = List.replicate 56 0 ++ bits := by
  have hnext := @writeAt_next buf (List.replicate 56 0) 0 bits (Nat.zero_le _)
  rw [List.length_replicate, Nat.zero_add] at hnext
  rw [hnext, writeAt_all (by rw [List.length_append, List.length_replicate, hbits, hsize])]

/-- **The padding fills one block or two.** -/
theorem absorb_padding {σ : Type} {compress : σ → List UInt8 → σ} {b : Buffered σ UInt8} {n : Nat}
    (hcount : b.block.length = n % 64) (hbits : bits.length = 8) :
    (absorb 64 compress b (0x80 :: List.replicate (zeros 64 8 n) 0 ++ bits)).state =
      if 56 ≤ b.block.length then
        compress (compress b.state
          (b.block ++ 0x80 :: List.replicate (64 - (b.block.length + 1)) 0))
          (List.replicate 56 0 ++ bits)
      else compress b.state
        (b.block ++ (0x80 :: List.replicate (56 - (b.block.length + 1)) 0 ++ bits)) := by
  have hmod := Nat.mod_lt n (by decide : 0 < 64)
  by_cases hfull : 56 ≤ b.block.length
  · have hzeros : zeros 64 8 n = (64 - (b.block.length + 1)) + 56 := by
      unfold zeros
      omega
    have hsplit : 0x80 :: (List.replicate (64 - (b.block.length + 1)) (0 : UInt8) ++
        List.replicate 56 0) ++ bits =
        (0x80 :: List.replicate (64 - (b.block.length + 1)) 0) ++
          (List.replicate 56 0 ++ bits) := by
      rw [List.cons_append, List.cons_append, List.append_assoc]
    have hfirst : b.block.length +
        (0x80 :: List.replicate (64 - (b.block.length + 1)) (0 : UInt8)).length = 64 := by
      rw [List.length_cons, List.length_replicate]
      omega
    have hlast : (List.replicate 56 (0 : UInt8) ++ bits).length = 64 := by
      rw [List.length_append, List.length_replicate, hbits]
    rw [if_pos hfull, hzeros, List.replicate_add, hsplit, absorb_append,
      absorb_of_eq (List.cons_ne_nil _ _) hfirst, absorb_of_eq (by simp) (by rw [hlast]; rfl)]
    rfl
  · have hzeros : zeros 64 8 n = 56 - (b.block.length + 1) := by
      unfold zeros
      omega
    have hall : b.block.length +
        (0x80 :: List.replicate (56 - (b.block.length + 1)) (0 : UInt8) ++ bits).length = 64 := by
      rw [List.length_append, List.length_cons, List.length_replicate, hbits]
      omega
    rw [if_neg hfull, hzeros, absorb_of_eq (by simp) hall]

end

/-- **`MD5Final`** hashes the padding. -/
theorem Md5Context.Holds.final {ctx : Md5Context} {b : Buffered Md5State UInt8} {n : Nat}
    (h : ctx.Holds b n) :
    md5Final ctx = (absorb 64 md5Transform b (md5Padding n)).state.digest := by
  obtain ⟨hlow, hhigh⟩ := md5_bits n
  have hshort := h.short
  unfold md5Final md5Padding
  simp only
  rw [h.low, h.bytes0, h.bytes1, hlow, hhigh, absorb_padding h.count rfl, h.buf]
  by_cases hfull : 56 ≤ b.block.length
  · have hblock := full_block h.size h.block hshort
    rw [if_pos hfull, if_pos (by omega), hblock, last_block ?_ rfl]
    · rfl
    · rw [List.length_append, List.length_cons, List.length_replicate]
      omega
  · rw [if_neg hfull, if_neg (by omega)]
    simp only
    rw [final_block h.size h.block rfl (by omega)]
    rfl

/-! ## Messages -/

/-- The pieces of a message. -/
theorem Md5Context.Holds.pieces {ctx : Md5Context} {b : Buffered Md5State UInt8} {n : Nat}
    {pieces : List (List UInt8)} (h : ctx.Holds b n)
    (hpieces : ∀ piece ∈ pieces, piece.length < 2 ^ 32) :
    (pieces.foldl md5Update ctx).Holds (absorb 64 md5Transform b pieces.flatten)
      (n + pieces.flatten.length) := by
  induction pieces generalizing ctx b n with
  | nil => exact h
  | cons piece pieces ih =>
    obtain ⟨hpiece, hrest⟩ := List.forall_mem_cons.1 hpieces
    have hnext := ih (h.update hpiece) hrest
    rw [List.foldl_cons, List.flatten_cons, absorb_append, List.length_append, ← Nat.add_assoc]
    exact hnext

/-- The digest is that of what the pieces make. -/
theorem md5_absorb {input : List UInt8} (hinput : input.length = 64) {pieces : List (List UInt8)}
    (hpieces : ∀ piece ∈ pieces, piece.length < 2 ^ 32) :
    md5Final (pieces.foldl md5Update (md5Init input)) =
      (absorb 64 md5Transform ⟨md5Start, []⟩
        (pieces.flatten ++ md5Padding pieces.flatten.length)).state.digest := by
  have hholds := (Md5Context.Holds.init hinput).pieces hpieces
  rw [Nat.zero_add] at hholds
  rw [hholds.final, absorb_append]

/-- **The pieces do not matter.** Any message, in any pieces, has the digest of its padded blocks
transformed one after the other. -/
theorem md5_pieces {input : List UInt8} (hinput : input.length = 64) {pieces : List (List UInt8)}
    (hpieces : ∀ piece ∈ pieces, piece.length < 2 ^ 32) :
    ∃ blocks, Blocks 64 blocks (pieces.flatten ++ md5Padding pieces.flatten.length) ∧
      md5Final (pieces.foldl md5Update (md5Init input)) =
        (blocks.foldl md5Transform md5Start).digest := by
  obtain ⟨k, hk⟩ := @padding_full 64 pieces.flatten.length 8 (by decide)
  have hlength : (pieces.flatten ++ md5Padding pieces.flatten.length).length = k * 64 := by
    rw [← hk]
    unfold md5Padding
    simp only [List.length_append, List.length_cons, List.length_replicate, leBytes,
      List.length_nil]
    omega
  obtain ⟨blocks, hblocks, habsorb⟩ :=
    @absorb_message _ _ 64 md5Transform _ md5Start k (by decide) hlength
  exact ⟨blocks, hblocks, by rw [md5_absorb hinput hpieces, habsorb]⟩

/-- A message in two pieces. -/
theorem md5_pieces_two : ∃ blocks, Blocks 64 blocks ([1, 2, 3] ++ md5Padding 3) ∧
    md5Final ([[1], [2, 3]].foldl md5Update (md5Init (List.replicate 64 0))) =
      (blocks.foldl md5Transform md5Start).digest :=
  @md5_pieces (List.replicate 64 0) (by decide) [[1], [2, 3]] (by decide)

end Libiscsi
