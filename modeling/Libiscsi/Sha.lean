import Libiscsi.Md5

/-!
# SHA-1 and SHA-256

`lib/sha1.c` and `lib/sha224-256.c`. The two files differ in the state, in how a block is processed
and in the initial values; the context, the input, the padding and the result are the same code,
which is written once here for both (`ShaFamily`). A message in any pieces has the digest of its
padded blocks, as long as its length in bits fits into 64 bits; a longer one is refused
(`sha_pieces`).
-/

namespace Libiscsi

open BlockHash

/-! ## Words -/

/-- The four bytes of a word, the most significant first. -/
def beBytes (v : UInt32) : List UInt8 :=
  [(v >>> 24).toUInt8, (v >>> 16).toUInt8, (v >>> 8).toUInt8, v.toUInt8]

/-- The first sixteen words of the word sequence. -/
def shaWords (block : List UInt8) : List UInt32 :=
  (List.range 16).map fun t => (byte block (t * 4)).toUInt32 <<< 24 |||
    (byte block (t * 4 + 1)).toUInt32 <<< 16 ||| (byte block (t * 4 + 2)).toUInt32 <<< 8 |||
    (byte block (t * 4 + 3)).toUInt32

/-- `SHA1_ROTL` and `SHA256_ROTL`. -/
def shaRotl (bits word : UInt32) : UInt32 := (word <<< bits) ||| (word >>> (32 - bits))

/-- `SHA256_ROTR`. -/
def shaRotr (bits word : UInt32) : UInt32 := (word >>> bits) ||| (word <<< (32 - bits))

/-- `SHA_Ch`. -/
def shaCh (x y z : UInt32) : UInt32 := (x &&& y) ^^^ (~~~x &&& z)

/-- `SHA_Maj`. -/
def shaMaj (x y z : UInt32) : UInt32 := (x &&& y) ^^^ (x &&& z) ^^^ (y &&& z)

/-- `SHA_Parity`. -/
def shaParity (x y z : UInt32) : UInt32 := x ^^^ y ^^^ z

/-! ## SHA-1 -/

/-- `Intermediate_Hash` of SHA-1. -/
structure Sha1State where
  a : UInt32
  b : UInt32
  c : UInt32
  d : UInt32
  e : UInt32
  deriving DecidableEq, Repr

/-- The word sequence of SHA-1. -/
def sha1Sequence (block : List UInt8) : List UInt32 :=
  (List.range 64).foldl (fun w t => w ++ [shaRotl 1 (w.getD (t + 13) 0 ^^^ w.getD (t + 8) 0 ^^^
    w.getD (t + 2) 0 ^^^ w.getD t 0)]) (shaWords block)

/-- Twenty turns with one function and one constant. -/
def sha1Rounds (f : UInt32 → UInt32 → UInt32 → UInt32) (k : UInt32) (st : Sha1State)
    (w : List UInt32) : Sha1State :=
  w.foldl (fun st w =>
    { a := shaRotl 5 st.a + f st.b st.c st.d + st.e + w + k
      b := st.a
      c := shaRotl 30 st.b
      d := st.c
      e := st.d }) st

/-- `SHA1ProcessMessageBlock`. -/
def sha1ProcessMessageBlock (st : Sha1State) (block : List UInt8) : Sha1State :=
  let w := sha1Sequence block
  let new := sha1Rounds shaCh 0x5A827999 st (w.take 20)
  let new := sha1Rounds shaParity 0x6ED9EBA1 new ((w.drop 20).take 20)
  let new := sha1Rounds shaMaj 0x8F1BBCDC new ((w.drop 40).take 20)
  let new := sha1Rounds shaParity 0xCA62C1D6 new ((w.drop 60).take 20)
  { a := st.a + new.a, b := st.b + new.b, c := st.c + new.c, d := st.d + new.d,
    e := st.e + new.e }

/-! ## SHA-256 -/

/-- `Intermediate_Hash` of SHA-256. -/
structure Sha256State where
  a : UInt32
  b : UInt32
  c : UInt32
  d : UInt32
  e : UInt32
  f : UInt32
  g : UInt32
  h : UInt32
  deriving DecidableEq, Repr

/-- `SHA256_SIGMA0`. -/
def sha256Sigma0 (word : UInt32) : UInt32 := shaRotr 2 word ^^^ shaRotr 13 word ^^^ shaRotr 22 word

/-- `SHA256_SIGMA1`. -/
def sha256Sigma1 (word : UInt32) : UInt32 := shaRotr 6 word ^^^ shaRotr 11 word ^^^ shaRotr 25 word

/-- `SHA256_sigma0`. -/
def sha256SmallSigma0 (word : UInt32) : UInt32 :=
  shaRotr 7 word ^^^ shaRotr 18 word ^^^ (word >>> 3)

/-- `SHA256_sigma1`. -/
def sha256SmallSigma1 (word : UInt32) : UInt32 :=
  shaRotr 17 word ^^^ shaRotr 19 word ^^^ (word >>> 10)

/-- `K` of SHA-256. -/
def sha256K : List UInt32 :=
  [0x428a2f98, 0x71374491, 0xb5c0fbcf, 0xe9b5dba5, 0x3956c25b, 0x59f111f1, 0x923f82a4, 0xab1c5ed5,
   0xd807aa98, 0x12835b01, 0x243185be, 0x550c7dc3, 0x72be5d74, 0x80deb1fe, 0x9bdc06a7, 0xc19bf174,
   0xe49b69c1, 0xefbe4786, 0x0fc19dc6, 0x240ca1cc, 0x2de92c6f, 0x4a7484aa, 0x5cb0a9dc, 0x76f988da,
   0x983e5152, 0xa831c66d, 0xb00327c8, 0xbf597fc7, 0xc6e00bf3, 0xd5a79147, 0x06ca6351, 0x14292967,
   0x27b70a85, 0x2e1b2138, 0x4d2c6dfc, 0x53380d13, 0x650a7354, 0x766a0abb, 0x81c2c92e, 0x92722c85,
   0xa2bfe8a1, 0xa81a664b, 0xc24b8b70, 0xc76c51a3, 0xd192e819, 0xd6990624, 0xf40e3585, 0x106aa070,
   0x19a4c116, 0x1e376c08, 0x2748774c, 0x34b0bcb5, 0x391c0cb3, 0x4ed8aa4a, 0x5b9cca4f, 0x682e6ff3,
   0x748f82ee, 0x78a5636f, 0x84c87814, 0x8cc70208, 0x90befffa, 0xa4506ceb, 0xbef9a3f7, 0xc67178f2]

/-- The word sequence of SHA-256. -/
def sha256Sequence (block : List UInt8) : List UInt32 :=
  (List.range 48).foldl (fun w t => w ++ [sha256SmallSigma1 (w.getD (t + 14) 0) +
    w.getD (t + 9) 0 + sha256SmallSigma0 (w.getD (t + 1) 0) + w.getD t 0]) (shaWords block)

/-- A turn of the loop of SHA-256. -/
def sha256Round (st : Sha256State) (k w : UInt32) : Sha256State :=
  let temp1 := st.h + sha256Sigma1 st.e + shaCh st.e st.f st.g + k + w
  let temp2 := sha256Sigma0 st.a + shaMaj st.a st.b st.c
  { a := temp1 + temp2, b := st.a, c := st.b, d := st.c, e := st.d + temp1, f := st.e, g := st.f,
    h := st.g }

/-- `SHA224_256ProcessMessageBlock`. -/
def sha256ProcessMessageBlock (st : Sha256State) (block : List UInt8) : Sha256State :=
  let new := (sha256K.zip (sha256Sequence block)).foldl (fun st kw => sha256Round st kw.1 kw.2) st
  { a := st.a + new.a, b := st.b + new.b, c := st.c + new.c, d := st.d + new.d,
    e := st.e + new.e, f := st.f + new.f, g := st.g + new.g, h := st.h + new.h }

/-! ## The context -/

/-- What the two files differ in: the initial values, the processing of a block, and the words of
the state that are returned. -/
structure ShaFamily (σ : Type) where
  start : σ
  process : σ → List UInt8 → σ
  words : σ → List UInt32

/-- SHA-1. -/
def sha1 : ShaFamily Sha1State where
  start := ⟨0x67452301, 0xEFCDAB89, 0x98BADCFE, 0x10325476, 0xC3D2E1F0⟩
  process := sha1ProcessMessageBlock
  words := fun st => [st.a, st.b, st.c, st.d, st.e]

/-- SHA-256. -/
def sha256 : ShaFamily Sha256State where
  start := ⟨0x6A09E667, 0xBB67AE85, 0x3C6EF372, 0xA54FF53A, 0x510E527F, 0x9B05688C, 0x1F83D9AB,
    0x5BE0CD19⟩
  process := sha256ProcessMessageBlock
  words := fun st => [st.a, st.b, st.c, st.d, st.e, st.f, st.g, st.h]

/-- `SHA1Context` and `SHA256Context`. `corrupted` is 1 when the length has overflown. -/
structure ShaContext (σ : Type) where
  intermediateHash : σ
  lengthLow : UInt32
  lengthHigh : UInt32
  messageBlockIndex : Nat
  messageBlock : List UInt8
  computed : Bool
  corrupted : Nat

/-- `shaStateError`. -/
def shaStateError : Nat := 3

namespace ShaFamily
variable {σ : Type} (sha : ShaFamily σ)

/-- `SHA1Reset` and `SHA256Reset`, which leave `Message_Block` as it is. -/
def reset (messageBlock : List UInt8) : ShaContext σ where
  intermediateHash := sha.start
  lengthLow := 0
  lengthHigh := 0
  messageBlockIndex := 0
  messageBlock
  computed := false
  corrupted := 0

/-- The block is processed. -/
def processBlock (context : ShaContext σ) : ShaContext σ :=
  { context with
    intermediateHash := sha.process context.intermediateHash context.messageBlock
    messageBlockIndex := 0 }

/-- `SHA1AddLength` and `SHA224_256AddLength`. -/
def addLength (context : ShaContext σ) (length : UInt32) : ShaContext σ :=
  let low := context.lengthLow + length
  if low < context.lengthLow then
    { context with
      lengthLow := low
      lengthHigh := context.lengthHigh + 1
      corrupted := if context.lengthHigh + 1 = 0 then 1 else 0 }
  else { context with lengthLow := low, corrupted := 0 }

/-- A turn of the loop of the input. -/
def inputByte (context : ShaContext σ) (b : UInt8) : ShaContext σ :=
  let context := { context with
    messageBlock := writeAt context.messageBlock context.messageBlockIndex [b]
    messageBlockIndex := context.messageBlockIndex + 1 }
  let context := addLength context 8
  if context.corrupted = 0 ∧ context.messageBlockIndex = 64 then sha.processBlock context
  else context

/-- The loop of the input. -/
def inputLoop : ShaContext σ → List UInt8 → ShaContext σ
  | context, [] => context
  | context, b :: rest =>
    if context.corrupted = 0 then inputLoop (sha.inputByte context b) rest else context

/-- `SHA1Input` and `SHA256Input`: the return value and the context. -/
def input (context : ShaContext σ) (message : List UInt8) : Nat × ShaContext σ :=
  if message = [] then (0, context)
  else if context.computed then (shaStateError, { context with corrupted := shaStateError })
  else if context.corrupted ≠ 0 then (context.corrupted, context)
  else (0, sha.inputLoop context message)

/-- Zeros are written up to an index. -/
def fillTo (context : ShaContext σ) (n : Nat) : ShaContext σ :=
  { context with
    messageBlock := writeAt context.messageBlock context.messageBlockIndex
      (List.replicate (n - context.messageBlockIndex) 0)
    messageBlockIndex := max context.messageBlockIndex n }

/-- `SHA1PadMessage` and `SHA224_256PadMessage`. -/
def padMessage (context : ShaContext σ) (padByte : UInt8) : ShaContext σ :=
  let full := decide (56 ≤ context.messageBlockIndex)
  let context := { context with
    messageBlock := writeAt context.messageBlock context.messageBlockIndex [padByte]
    messageBlockIndex := context.messageBlockIndex + 1 }
  let context := if full then sha.processBlock (fillTo context 64) else context
  let context := fillTo context 56
  sha.processBlock { context with
    messageBlock := writeAt context.messageBlock 56
      (beBytes context.lengthHigh ++ beBytes context.lengthLow) }

/-- `SHA1Finalize` and `SHA224_256Finalize`. -/
def finalize (context : ShaContext σ) (padByte : UInt8) : ShaContext σ :=
  { sha.padMessage context padByte with
    messageBlock := List.replicate 64 0
    lengthLow := 0
    lengthHigh := 0
    computed := true }

/-- The bytes of the words. -/
def digest (st : σ) : List UInt8 := (sha.words st).flatMap beBytes

/-- `SHA1Result` and `SHA256Result`: an error, or the digest. -/
def result (context : ShaContext σ) : Except Nat (List UInt8) :=
  if context.corrupted ≠ 0 then .error context.corrupted
  else if context.computed then .ok (sha.digest context.intermediateHash)
  else .ok (sha.digest (sha.finalize context 0x80).intermediateHash)

/-- A message in pieces. -/
def hash (messageBlock : List UInt8) (pieces : List (List UInt8)) : Except Nat (List UInt8) :=
  sha.result (pieces.foldl (fun context piece => (sha.input context piece).2)
    (sha.reset messageBlock))

end ShaFamily

/-- The published digests of the empty message. -/
example : sha1.hash (List.replicate 64 0) [] =
    .ok [0xda, 0x39, 0xa3, 0xee, 0x5e, 0x6b, 0x4b, 0x0d, 0x32, 0x55, 0xbf, 0xef, 0x95, 0x60, 0x18,
      0x90, 0xaf, 0xd8, 0x07, 0x09] := by
  decide +kernel

example : sha256.hash (List.replicate 64 0) [] =
    .ok [0xe3, 0xb0, 0xc4, 0x42, 0x98, 0xfc, 0x1c, 0x14, 0x9a, 0xfb, 0xf4, 0xc8, 0x99, 0x6f, 0xb9,
      0x24, 0x27, 0xae, 0x41, 0xe4, 0x64, 0x9b, 0x93, 0x4c, 0xa4, 0x95, 0x99, 0x1b, 0x78, 0x52,
      0xb8, 0x55] := by
  decide +kernel

/-! ## Pieces -/

/-- The context has processed and kept what came of the message, which has `n` bytes so far. -/
structure ShaContext.Holds {σ : Type} (context : ShaContext σ) (b : Buffered σ UInt8) (n : Nat) :
    Prop where
  hash : context.intermediateHash = b.state
  index : context.messageBlockIndex = b.block.length
  size : context.messageBlock.length = 64
  block : context.messageBlock.take b.block.length = b.block
  count : b.block.length = n % 64
  low : context.lengthLow = UInt32.ofNat (8 * n)
  high : context.lengthHigh = UInt32.ofNat (8 * n / 2 ^ 32)
  computed : context.computed = false
  corrupted : context.corrupted = 0

/-- What follows a message of `n` bytes: a one bit, zeros, and its length in bits as a number of 64
bits. -/
def shaPadding (n : Nat) : List UInt8 :=
  0x80 :: List.replicate (zeros 64 8 n) 0 ++
    (beBytes (UInt32.ofNat (8 * n / 2 ^ 32)) ++ beBytes (UInt32.ofNat (8 * n)))

namespace ShaFamily
variable {σ : Type} {sha : ShaFamily σ} {context : ShaContext σ} {b : Buffered σ UInt8} {n : Nat}

theorem holds_reset {messageBlock : List UInt8} (h : messageBlock.length = 64) :
    (sha.reset messageBlock).Holds ⟨sha.start, []⟩ 0 :=
  ⟨rfl, rfl, h, rfl, rfl, rfl, rfl, rfl, rfl⟩

theorem short (h : context.Holds b n) : b.block.length < 64 := by
  rw [h.count]
  exact Nat.mod_lt _ (by decide)

/-- The length goes on by a byte, and overflows at 2⁶⁴ bits. -/
theorem addLength_eq (hlow : context.lengthLow = UInt32.ofNat (8 * n))
    (hhigh : context.lengthHigh = UInt32.ofNat (8 * n / 2 ^ 32)) (hn : n + 1 ≤ 2 ^ 61) :
    addLength context 8 = { context with
      lengthLow := UInt32.ofNat (8 * (n + 1))
      lengthHigh := UInt32.ofNat (8 * (n + 1) / 2 ^ 32)
      corrupted := if n + 1 = 2 ^ 61 then 1 else 0 } := by
  have height : (8 : UInt32).toNat = 8 := rfl
  have hone : (1 : UInt32).toNat = 1 := rfl
  have hsum : context.lengthLow + 8 = UInt32.ofNat (8 * (n + 1)) := by
    rw [hlow, ← UInt32.toNat_inj]
    simp only [UInt32.toNat_add, UInt32.toNat_ofNat', height]
    omega
  have hcarry : context.lengthLow + 8 < context.lengthLow ↔ 2 ^ 32 ≤ 8 * n % 2 ^ 32 + 8 := by
    rw [hsum, hlow, UInt32.lt_iff_toNat_lt, UInt32.toNat_ofNat', UInt32.toNat_ofNat']
    omega
  unfold addLength
  simp only
  by_cases hover : 2 ^ 32 ≤ 8 * n % 2 ^ 32 + 8
  · have hnext : context.lengthHigh + 1 = UInt32.ofNat (8 * (n + 1) / 2 ^ 32) := by
      rw [hhigh, ← UInt32.toNat_inj]
      simp only [UInt32.toNat_add, UInt32.toNat_ofNat', hone]
      omega
    have hzero : context.lengthHigh + 1 = 0 ↔ n + 1 = 2 ^ 61 := by
      rw [hnext, ← UInt32.toNat_inj, UInt32.toNat_ofNat']
      change _ = 0 ↔ _
      omega
    rw [if_pos (hcarry.2 hover), hsum, hnext]
    rw [hnext] at hzero
    simp only [hzero]
  · have hsame : context.lengthHigh = UInt32.ofNat (8 * (n + 1) / 2 ^ 32) := by
      rw [hhigh, ← UInt32.toNat_inj, UInt32.toNat_ofNat', UInt32.toNat_ofNat']
      omega
    rw [if_neg (mt hcarry.1 hover), hsum, ← hsame, if_neg (by omega)]

/-- **A byte of the input.** -/
theorem inputByte_holds (h : context.Holds b n) (x : UInt8) (hn : n + 1 < 2 ^ 61) :
    (sha.inputByte context x).Holds (push 64 sha.process b x) (n + 1) := by
  have hshort := short h
  have hcount := h.count
  have hadd := @addLength_eq σ { context with
      messageBlock := writeAt context.messageBlock context.messageBlockIndex [x]
      messageBlockIndex := context.messageBlockIndex + 1 } n h.low h.high hn.le
  have htake := @take_writeAt context.messageBlock [x] b.block.length (by rw [h.size]; omega)
  rw [h.block, List.length_singleton] at htake
  have hsize : (writeAt context.messageBlock b.block.length [x]).length = 64 :=
    (length_writeAt (by rw [h.size, List.length_singleton]; omega)).trans h.size
  unfold inputByte
  simp only
  rw [hadd, if_neg hn.ne, h.index]
  unfold push
  by_cases hfull : b.block.length + 1 = 64
  · have hblock : writeAt context.messageBlock b.block.length [x] = b.block ++ [x] := by
      rw [← htake, hfull, ← hsize, List.take_length]
    rw [if_pos ⟨rfl, hfull⟩, if_pos hfull]
    refine ⟨?_, rfl, hsize, rfl, ?_, rfl, rfl, h.computed, rfl⟩
    · change sha.process context.intermediateHash _ = sha.process b.state _
      rw [h.hash, hblock]
    · change 0 = _
      omega
  · rw [if_neg fun h' => hfull h'.2, if_neg hfull]
    have hlength : (b.block ++ [x]).length = b.block.length + 1 := by
      rw [List.length_append, List.length_singleton]
    refine ⟨h.hash, hlength.symm, hsize, ?_, ?_, rfl, rfl, h.computed, rfl⟩
    · change List.take (b.block ++ [x]).length _ = b.block ++ [x]
      rw [hlength]
      exact htake
    · change (b.block ++ [x]).length = _
      rw [hlength]
      omega

/-- A message that is too long. -/
structure Overflown (context : ShaContext σ) : Prop where
  computed : context.computed = false
  corrupted : context.corrupted = 1

theorem inputByte_overflown (h : context.Holds b n) (x : UInt8) (hn : n + 1 = 2 ^ 61) :
    Overflown (sha.inputByte context x) := by
  have hadd := @addLength_eq σ { context with
      messageBlock := writeAt context.messageBlock context.messageBlockIndex [x]
      messageBlockIndex := context.messageBlockIndex + 1 } n h.low h.high hn.le
  unfold inputByte
  simp only
  rw [hadd, if_pos hn, if_neg fun h' => absurd h'.1 Nat.one_ne_zero]
  exact ⟨h.computed, rfl⟩

/-- The loop over a piece. -/
theorem inputLoop_spec {message : List UInt8} (h : context.Holds b n) (hn : n < 2 ^ 61) :
    if n + message.length < 2 ^ 61 then
      (sha.inputLoop context message).Holds (absorb 64 sha.process b message) (n + message.length)
    else Overflown (sha.inputLoop context message) := by
  induction message generalizing context b n with
  | nil =>
    rw [if_pos (by rw [List.length_nil]; omega)]
    exact h
  | cons x message ih =>
    rw [inputLoop, if_pos h.corrupted, List.length_cons]
    rcases Nat.lt_or_ge (n + 1) (2 ^ 61) with hlt | hge
    · have hnext := ih (@inputByte_holds σ sha _ _ _ h x hlt) hlt
      rw [Nat.add_assoc, Nat.add_comm 1] at hnext
      exact hnext
    · have hover := @inputByte_overflown σ sha _ _ _ h x (by omega)
      rw [if_neg (by omega)]
      cases message with
      | nil => exact hover
      | cons y message =>
        rw [inputLoop, if_neg (by rw [hover.corrupted]; decide)]
        exact hover

theorem input_spec {message : List UInt8} (h : context.Holds b n) (hn : n < 2 ^ 61) :
    if n + message.length < 2 ^ 61 then
      (sha.input context message).2.Holds (absorb 64 sha.process b message) (n + message.length)
    else Overflown (sha.input context message).2 := by
  by_cases hnil : message = []
  · subst hnil
    rw [if_pos (by rw [List.length_nil]; omega)]
    exact h
  · have hinput : sha.input context message = (0, sha.inputLoop context message) := by
      unfold input
      rw [if_neg hnil, if_neg (by rw [h.computed]; decide), if_neg (not_not.2 h.corrupted)]
    rw [hinput]
    exact inputLoop_spec h hn

/-- A message that is too long stays so. -/
theorem Overflown.input (h : Overflown context) (message : List UInt8) :
    Overflown (sha.input context message).2 := by
  unfold ShaFamily.input
  split_ifs with hnil hcomputed hcorrupted
  · exact h
  · exact absurd (h.computed.symm.trans hcomputed) Bool.false_ne_true
  · exact h
  · exact absurd (h.corrupted.symm.trans (not_not.1 hcorrupted)) Nat.one_ne_zero

/-- **`SHA1PadMessage` and `SHA224_256PadMessage`** process the padding. -/
theorem padMessage_spec (h : context.Holds b n) :
    (sha.padMessage context 0x80).intermediateHash =
      (absorb 64 sha.process b (shaPadding n)).state := by
  have hshort := short h
  unfold padMessage shaPadding
  simp only
  rw [absorb_padding h.count rfl, ← h.hash, ← h.low, ← h.high, h.index]
  by_cases hfull : 56 ≤ b.block.length
  · have hblock := full_block h.size h.block hshort
    rw [if_pos hfull, decide_eq_true hfull, if_pos rfl]
    change sha.process (sha.process context.intermediateHash (writeAt (writeAt _ _ [0x80]) _ _))
      (writeAt (writeAt (writeAt (writeAt _ _ [0x80]) _ _) 0 (List.replicate 56 0)) 56 _) = _
    rw [hblock, last_block ?_ rfl]
    · rfl
    · rw [List.length_append, List.length_cons, List.length_replicate]
      omega
  · rw [if_neg hfull, decide_eq_false hfull, if_neg Bool.false_ne_true]
    change sha.process context.intermediateHash
      (writeAt (writeAt (writeAt _ _ [0x80]) _ (List.replicate (56 - _) 0)) 56 _) = _
    rw [final_block h.size h.block rfl (by omega)]
    rfl

/-- The result of a message that is not too long. -/
theorem result_holds (h : context.Holds b n) : sha.result context =
    .ok (sha.digest (absorb 64 sha.process b (shaPadding n)).state) := by
  unfold result
  rw [if_neg (not_not.2 h.corrupted), if_neg (by rw [h.computed]; decide)]
  change Except.ok (sha.digest (sha.padMessage context 0x80).intermediateHash) = _
  rw [padMessage_spec h]

/-- The pieces of a message. -/
theorem input_pieces {pieces : List (List UInt8)} (h : context.Holds b n) (hn : n < 2 ^ 61) :
    if n + pieces.flatten.length < 2 ^ 61 then
      (pieces.foldl (fun context piece => (sha.input context piece).2) context).Holds
        (absorb 64 sha.process b pieces.flatten) (n + pieces.flatten.length)
    else Overflown (pieces.foldl (fun context piece => (sha.input context piece).2) context) := by
  have hstays : ∀ {pieces : List (List UInt8)} {context : ShaContext σ}, Overflown context →
      Overflown (pieces.foldl (fun context piece => (sha.input context piece).2) context) := by
    intro pieces
    induction pieces with
    | nil => exact fun h => h
    | cons piece pieces ih => exact fun h => ih (Overflown.input h piece)
  induction pieces generalizing context b n with
  | nil =>
    rw [List.flatten_nil, List.length_nil, if_pos (by omega)]
    exact h
  | cons piece pieces ih =>
    have hpiece := @input_spec σ sha _ _ _ piece h hn
    rw [List.foldl_cons, List.flatten_cons, List.length_append, absorb_append]
    rcases Nat.lt_or_ge (n + piece.length) (2 ^ 61) with hlt | hge
    · rw [if_pos hlt] at hpiece
      have hnext := ih hpiece hlt
      rw [Nat.add_assoc] at hnext
      exact hnext
    · rw [if_neg (by omega)] at hpiece ⊢
      exact hstays hpiece

/-- The digest is that of what the pieces make, unless there are too many bytes. -/
theorem hash_absorb (sha : ShaFamily σ) {messageBlock : List UInt8}
    (hblock : messageBlock.length = 64) (pieces : List (List UInt8)) :
    sha.hash messageBlock pieces =
      if pieces.flatten.length < 2 ^ 61 then
        .ok (sha.digest (absorb 64 sha.process ⟨sha.start, []⟩
          (pieces.flatten ++ shaPadding pieces.flatten.length)).state)
      else .error 1 := by
  have hrun := @input_pieces σ sha _ _ _ pieces (@holds_reset σ sha _ hblock) (by decide)
  rw [Nat.zero_add] at hrun
  unfold hash
  by_cases hshort : pieces.flatten.length < 2 ^ 61
  · rw [if_pos hshort] at hrun ⊢
    rw [result_holds hrun, absorb_append]
  · rw [if_neg hshort] at hrun ⊢
    unfold result
    rw [if_pos (by rw [hrun.corrupted]; decide), hrun.corrupted]

/-- **A message in pieces.** If its length in bits is a number of 64 bits its digest is that of its
padded blocks processed one after the other, whatever the pieces are; else it is refused. -/
theorem sha_pieces (sha : ShaFamily σ) {messageBlock : List UInt8}
    (hblock : messageBlock.length = 64) (pieces : List (List UInt8)) :
    if pieces.flatten.length < 2 ^ 61 then
      ∃ blocks, Blocks 64 blocks (pieces.flatten ++ shaPadding pieces.flatten.length) ∧
        sha.hash messageBlock pieces = .ok (sha.digest (blocks.foldl sha.process sha.start))
    else sha.hash messageBlock pieces = .error 1 := by
  rw [hash_absorb sha hblock]
  by_cases hshort : pieces.flatten.length < 2 ^ 61
  · rw [if_pos hshort, if_pos hshort]
    obtain ⟨k, hk⟩ := @padding_full 64 pieces.flatten.length 8 (by decide)
    have hlength : (pieces.flatten ++ shaPadding pieces.flatten.length).length = k * 64 := by
      rw [← hk]
      unfold shaPadding
      simp only [List.length_append, List.length_cons, List.length_replicate, beBytes,
        List.length_nil]
      omega
    obtain ⟨blocks, hblocks, habsorb⟩ :=
      @absorb_message _ _ 64 sha.process _ sha.start k (by decide) hlength
    exact ⟨blocks, hblocks, by rw [habsorb]⟩
  · rw [if_neg hshort, if_neg hshort]

/-- SHA-256 of a message in two pieces. -/
theorem sha_pieces_two :
    ∃ blocks, Blocks 64 blocks ([[1], [2, 3]].flatten ++ shaPadding [[1], [2, 3]].flatten.length) ∧
      sha256.hash (List.replicate 64 0) [[1], [2, 3]] =
        .ok (sha256.digest (blocks.foldl sha256.process sha256.start)) :=
  sha_pieces sha256 (by decide) [[1], [2, 3]]

end ShaFamily

end Libiscsi
