import Libiscsi.Modepage
import Mathlib.Data.Nat.Bitwise

/-!
# A mode page that is packed and unpacked

The data of a MODE SELECT, read as that of a MODE SENSE, is one page. The page is the one that was
packed, unless it is a control page with VS or RAC set or an autoload mode greater than 1, or a
disconnect-reconnect page with EMDP set (`modePage_roundTrips_iff`).
-/

namespace Libiscsi

/-! ## The pages and what they fit into -/

/-- The fields that share a byte with others have no more bits than they are packed into. -/
def ModePageData.Fits : ModePageData → Prop
  | caching p => p.demandReadRetentionPriority < 16 ∧ p.writeRetentionPriority < 16
  | control p => p.tst < 8 ∧ p.queueAlgorithmModifier < 16 ∧ p.qerr < 4 ∧ p.uaIntlckCtrl < 4 ∧
      p.autoloadMode < 8
  | disconnectReconnect p => p.fairArbitration < 8 ∧ p.dtdc < 8
  | iec p => p.mrie < 16
  | powerCondition p => p.pmBgPrecedence < 4 ∧ p.ccfIdle < 4 ∧ p.ccfStandby < 4 ∧
      p.ccfStopped < 4
  | other _ => False

/-- The number of bytes that follow the length of a page. -/
def ModePageData.bodySize : ModePageData → Nat
  | caching _ => 18
  | control _ => 10
  | disconnectReconnect _ => 14
  | iec _ => 10
  | powerCondition _ => 38
  | other _ => 0

/-- What is packed is unpacked as one page, with the fields it has. -/
def RoundTrips (mp : ScsiModePage) (six : Bool) : Prop :=
  ∃ data ms p, scsiModesenseDataoutMarshall mp six = some data ∧
    scsiModesenseDatainUnmarshall data six = some ms ∧ ms.pages = [p] ∧
    p.ps = mp.ps ∧ p.spf = mp.spf ∧ p.len = mp.data.bodySize ∧ p.data = mp.data

/-! ## Bytes -/

/-- The last bits of a word, and those before them. -/
theorem toNat_digit_or {n : Nat} {x y : Nat} (hy : y < 2 ^ n) :
    x * 2 ^ n ||| y = x * 2 ^ n + y := by
  rw [← Nat.shiftLeft_eq, Nat.shiftLeft_add_eq_or_of_lt hy]

/-- A 16-bit field is its two bytes. -/
theorem uint16_bytes (v : UInt16) : ((v >>> 8) % 256) <<< 8 ||| v % 256 = v := by
  have hv := v.toNat_lt
  have hor := toNat_digit_or (n := 8) (x := v.toNat / 2 ^ 8) (Nat.mod_lt v.toNat (by norm_num))
  apply UInt16.toNat_inj.1
  simp only [UInt16.toNat_or, UInt16.toNat_shiftLeft, UInt16.toNat_mod, UInt16.toNat_shiftRight,
    UInt16.toNat_ofNat, Nat.shiftRight_eq_div_pow, Nat.shiftLeft_eq]
  norm_num at hor ⊢
  rw [Nat.mod_eq_of_lt (show v.toNat / 256 < 256 by omega),
    Nat.mod_eq_of_lt (show v.toNat / 256 * 256 < 65536 by omega), hor]
  omega

/-- A 32-bit field is its four bytes. -/
theorem uint32_bytes (v : UInt32) :
    (((v >>> 24).toUInt8.toUInt32 <<< 8 ||| (v >>> 16).toUInt8.toUInt32) <<< 8 |||
      (v >>> 8).toUInt8.toUInt32) <<< 8 ||| v.toUInt8.toUInt32 = v := by
  have hset := scsiGetUint32_set (c := [0, 0, 0, 0]) (i := 0) (v := v) (by simp)
  simpa [scsiGetUint32, scsiSetUint32, byte, -UInt32.toUInt32_toUInt8] using hset

/-- A small value is that of a small number. -/
theorem exists_ofNat {b : Nat} (hb : b < 256) {x : UInt8} (h : x < UInt8.ofNat b) :
    ∃ n < b, x = UInt8.ofNat n := by
  refine ⟨x.toNat, ?_, (UInt8.ofNat_toNat).symm⟩
  have hlt := UInt8.lt_iff_toNat_lt.1 h
  rwa [UInt8.toNat_ofNat', Nat.mod_eq_of_lt hb] at hlt

/-! ## Fields that share a byte -/

/-- The flags of the first byte of a caching page. -/
theorem caching_flags : ∀ a b c d e f g h : Bool,
    testMask (maskIf a 0x80 ||| maskIf b 0x40 ||| maskIf c 0x20 ||| maskIf d 0x10 |||
      maskIf e 0x08 ||| maskIf f 0x04 ||| maskIf g 0x02 ||| maskIf h 0x01) 0x80 = a ∧
    testMask (maskIf a 0x80 ||| maskIf b 0x40 ||| maskIf c 0x20 ||| maskIf d 0x10 |||
      maskIf e 0x08 ||| maskIf f 0x04 ||| maskIf g 0x02 ||| maskIf h 0x01) 0x40 = b ∧
    testMask (maskIf a 0x80 ||| maskIf b 0x40 ||| maskIf c 0x20 ||| maskIf d 0x10 |||
      maskIf e 0x08 ||| maskIf f 0x04 ||| maskIf g 0x02 ||| maskIf h 0x01) 0x20 = c ∧
    testMask (maskIf a 0x80 ||| maskIf b 0x40 ||| maskIf c 0x20 ||| maskIf d 0x10 |||
      maskIf e 0x08 ||| maskIf f 0x04 ||| maskIf g 0x02 ||| maskIf h 0x01) 0x10 = d ∧
    testMask (maskIf a 0x80 ||| maskIf b 0x40 ||| maskIf c 0x20 ||| maskIf d 0x10 |||
      maskIf e 0x08 ||| maskIf f 0x04 ||| maskIf g 0x02 ||| maskIf h 0x01) 0x08 = e ∧
    testMask (maskIf a 0x80 ||| maskIf b 0x40 ||| maskIf c 0x20 ||| maskIf d 0x10 |||
      maskIf e 0x08 ||| maskIf f 0x04 ||| maskIf g 0x02 ||| maskIf h 0x01) 0x04 = f ∧
    testMask (maskIf a 0x80 ||| maskIf b 0x40 ||| maskIf c 0x20 ||| maskIf d 0x10 |||
      maskIf e 0x08 ||| maskIf f 0x04 ||| maskIf g 0x02 ||| maskIf h 0x01) 0x02 = g ∧
    testMask (maskIf a 0x80 ||| maskIf b 0x40 ||| maskIf c 0x20 ||| maskIf d 0x10 |||
      maskIf e 0x08 ||| maskIf f 0x04 ||| maskIf g 0x02 ||| maskIf h 0x01) 0x01 = h := by
  decide

theorem caching_fsw : ∀ a b c d : Bool,
    testMask (maskIf a 0x80 ||| maskIf b 0x40 ||| maskIf c 0x20 ||| maskIf d 0x01) 0x80 = a ∧
    testMask (maskIf a 0x80 ||| maskIf b 0x40 ||| maskIf c 0x20 ||| maskIf d 0x01) 0x40 = b ∧
    testMask (maskIf a 0x80 ||| maskIf b 0x40 ||| maskIf c 0x20 ||| maskIf d 0x01) 0x20 = c ∧
    testMask (maskIf a 0x80 ||| maskIf b 0x40 ||| maskIf c 0x20 ||| maskIf d 0x01) 0x01 = d := by
  decide

/-- The two priorities of a caching page. -/
theorem caching_priorities {x y : UInt8} (hx : x < 16) (hy : y < 16) :
    ((shiftMask x 4 0xf0 ||| (y &&& 0x0f)) >>> 4) &&& 0x0f = x ∧
      (shiftMask x 4 0xf0 ||| (y &&& 0x0f)) &&& 0x0f = y := by
  obtain ⟨m, hm, rfl⟩ := exists_ofNat (b := 16) (by norm_num) hx
  obtain ⟨n, hn, rfl⟩ := exists_ofNat (b := 16) (by norm_num) hy
  revert m n
  decide

/-- The first byte of a control page. -/
theorem control_tst {x : UInt8} (hx : x < 8) (a b c d e : Bool) :
    ((shiftMask x 5 0xe0 ||| maskIf a 0x10 ||| maskIf b 0x08 ||| maskIf c 0x04 |||
      maskIf d 0x02 ||| maskIf e 0x01) >>> 5) &&& 0x07 = x ∧
    testMask (shiftMask x 5 0xe0 ||| maskIf a 0x10 ||| maskIf b 0x08 ||| maskIf c 0x04 |||
      maskIf d 0x02 ||| maskIf e 0x01) 0x10 = a ∧
    testMask (shiftMask x 5 0xe0 ||| maskIf a 0x10 ||| maskIf b 0x08 ||| maskIf c 0x04 |||
      maskIf d 0x02 ||| maskIf e 0x01) 0x08 = b ∧
    testMask (shiftMask x 5 0xe0 ||| maskIf a 0x10 ||| maskIf b 0x08 ||| maskIf c 0x04 |||
      maskIf d 0x02 ||| maskIf e 0x01) 0x04 = c ∧
    testMask (shiftMask x 5 0xe0 ||| maskIf a 0x10 ||| maskIf b 0x08 ||| maskIf c 0x04 |||
      maskIf d 0x02 ||| maskIf e 0x01) 0x02 = d ∧
    testMask (shiftMask x 5 0xe0 ||| maskIf a 0x10 ||| maskIf b 0x08 ||| maskIf c 0x04 |||
      maskIf d 0x02 ||| maskIf e 0x01) 0x01 = e := by
  obtain ⟨n, hn, rfl⟩ := exists_ofNat (b := 8) (by norm_num) hx
  clear hx
  revert n a b c d e
  decide

theorem control_queue {x y : UInt8} (hx : x < 16) (hy : y < 4) (a : Bool) :
    ((shiftMask x 4 0xf0 ||| maskIf a 0x08 ||| shiftMask y 1 0x06) >>> 4) &&& 0x0f = x ∧
    testMask (shiftMask x 4 0xf0 ||| maskIf a 0x08 ||| shiftMask y 1 0x06) 0x08 = a ∧
    ((shiftMask x 4 0xf0 ||| maskIf a 0x08 ||| shiftMask y 1 0x06) >>> 1) &&& 0x03 = y := by
  obtain ⟨m, hm, rfl⟩ := exists_ofNat (b := 16) (by norm_num) hx
  obtain ⟨n, hn, rfl⟩ := exists_ofNat (b := 4) (by norm_num) hy
  revert m n a
  decide

/-- Two bits are packed and four are read: VS and RAC are read along. -/
theorem control_intlck {x : UInt8} (hx : x < 4) (a b c : Bool) :
    testMask (maskIf a 0x80 ||| maskIf b 0x40 ||| shiftMask x 4 0x30 ||| maskIf c 0x08) 0x80 =
      a ∧
    testMask (maskIf a 0x80 ||| maskIf b 0x40 ||| shiftMask x 4 0x30 ||| maskIf c 0x08) 0x40 =
      b ∧
    (((maskIf a 0x80 ||| maskIf b 0x40 ||| shiftMask x 4 0x30 ||| maskIf c 0x08) >>> 4) &&&
      0x0f = x ↔ a = false ∧ b = false) ∧
    testMask (maskIf a 0x80 ||| maskIf b 0x40 ||| shiftMask x 4 0x30 ||| maskIf c 0x08) 0x08 =
      c := by
  obtain ⟨n, hn, rfl⟩ := exists_ofNat (b := 4) (by norm_num) hx
  clear hx
  revert n a b c
  decide

/-- What is packed as three bits is read as a truth value. -/
theorem control_autoload {x : UInt8} (hx : x < 8) (a b c d : Bool) :
    testMask (maskIf a 0x80 ||| maskIf b 0x40 ||| maskIf c 0x20 ||| maskIf d 0x10 |||
      (x &&& 0x07)) 0x80 = a ∧
    testMask (maskIf a 0x80 ||| maskIf b 0x40 ||| maskIf c 0x20 ||| maskIf d 0x10 |||
      (x &&& 0x07)) 0x40 = b ∧
    testMask (maskIf a 0x80 ||| maskIf b 0x40 ||| maskIf c 0x20 ||| maskIf d 0x10 |||
      (x &&& 0x07)) 0x20 = c ∧
    testMask (maskIf a 0x80 ||| maskIf b 0x40 ||| maskIf c 0x20 ||| maskIf d 0x10 |||
      (x &&& 0x07)) 0x10 = d ∧
    ((if testMask (maskIf a 0x80 ||| maskIf b 0x40 ||| maskIf c 0x20 ||| maskIf d 0x10 |||
      (x &&& 0x07)) 0x07 then (1 : UInt8) else 0) = x ↔ x ≤ 1) := by
  obtain ⟨n, hn, rfl⟩ := exists_ofNat (b := 8) (by norm_num) hx
  clear hx
  revert n a b c d
  decide

/-- Three bits are packed and four are read: EMDP is read along. -/
theorem arbitration {x y : UInt8} (hx : x < 8) (hy : y < 8) (a b : Bool) :
    testMask (maskIf a 0x80 ||| shiftMask x 4 0x70 ||| maskIf b 0x08 ||| (y &&& 0x07)) 0x80 =
      a ∧
    (((maskIf a 0x80 ||| shiftMask x 4 0x70 ||| maskIf b 0x08 ||| (y &&& 0x07)) >>> 4) &&& 0x0f =
      x ↔ a = false) ∧
    testMask (maskIf a 0x80 ||| shiftMask x 4 0x70 ||| maskIf b 0x08 ||| (y &&& 0x07)) 0x08 =
      b ∧
    (maskIf a 0x80 ||| shiftMask x 4 0x70 ||| maskIf b 0x08 ||| (y &&& 0x07)) &&& 0x07 = y := by
  obtain ⟨m, hm, rfl⟩ := exists_ofNat (b := 8) (by norm_num) hx
  obtain ⟨n, hn, rfl⟩ := exists_ofNat (b := 8) (by norm_num) hy
  clear hx hy
  revert m n a b
  decide

theorem iec_flags : ∀ a b c d e f g : Bool,
    testMask (maskIf a 0x80 ||| maskIf b 0x20 ||| maskIf c 0x10 ||| maskIf d 0x08 |||
      maskIf e 0x04 ||| maskIf f 0x02 ||| maskIf g 0x01) 0x80 = a ∧
    testMask (maskIf a 0x80 ||| maskIf b 0x20 ||| maskIf c 0x10 ||| maskIf d 0x08 |||
      maskIf e 0x04 ||| maskIf f 0x02 ||| maskIf g 0x01) 0x20 = b ∧
    testMask (maskIf a 0x80 ||| maskIf b 0x20 ||| maskIf c 0x10 ||| maskIf d 0x08 |||
      maskIf e 0x04 ||| maskIf f 0x02 ||| maskIf g 0x01) 0x10 = c ∧
    testMask (maskIf a 0x80 ||| maskIf b 0x20 ||| maskIf c 0x10 ||| maskIf d 0x08 |||
      maskIf e 0x04 ||| maskIf f 0x02 ||| maskIf g 0x01) 0x08 = d ∧
    testMask (maskIf a 0x80 ||| maskIf b 0x20 ||| maskIf c 0x10 ||| maskIf d 0x08 |||
      maskIf e 0x04 ||| maskIf f 0x02 ||| maskIf g 0x01) 0x04 = e ∧
    testMask (maskIf a 0x80 ||| maskIf b 0x20 ||| maskIf c 0x10 ||| maskIf d 0x08 |||
      maskIf e 0x04 ||| maskIf f 0x02 ||| maskIf g 0x01) 0x02 = f ∧
    testMask (maskIf a 0x80 ||| maskIf b 0x20 ||| maskIf c 0x10 ||| maskIf d 0x08 |||
      maskIf e 0x04 ||| maskIf f 0x02 ||| maskIf g 0x01) 0x01 = g := by
  decide

theorem iec_mrie {x : UInt8} (hx : x < 16) : x &&& 0x0f &&& 0x0f = x := by
  obtain ⟨n, hn, rfl⟩ := exists_ofNat (b := 16) (by norm_num) hx
  revert n
  decide

theorem power_precedence {x : UInt8} (hx : x < 4) (a : Bool) :
    ((shiftMask x 6 0xc0 ||| maskIf a 0x01) >>> 6) &&& 0x03 = x ∧
    testMask (shiftMask x 6 0xc0 ||| maskIf a 0x01) 0x01 = a := by
  obtain ⟨n, hn, rfl⟩ := exists_ofNat (b := 4) (by norm_num) hx
  revert n a
  decide

theorem power_flags : ∀ a b c d : Bool,
    testMask (maskIf a 0x08 ||| maskIf b 0x04 ||| maskIf c 0x02 ||| maskIf d 0x01) 0x08 = a ∧
    testMask (maskIf a 0x08 ||| maskIf b 0x04 ||| maskIf c 0x02 ||| maskIf d 0x01) 0x04 = b ∧
    testMask (maskIf a 0x08 ||| maskIf b 0x04 ||| maskIf c 0x02 ||| maskIf d 0x01) 0x02 = c ∧
    testMask (maskIf a 0x08 ||| maskIf b 0x04 ||| maskIf c 0x02 ||| maskIf d 0x01) 0x01 = d := by
  decide

theorem power_ccf {x y z : UInt8} (hx : x < 4) (hy : y < 4) (hz : z < 4) :
    ((shiftMask x 6 0xc0 ||| shiftMask y 4 0x30 ||| shiftMask z 2 0x0c) >>> 6) &&& 0x03 = x ∧
    ((shiftMask x 6 0xc0 ||| shiftMask y 4 0x30 ||| shiftMask z 2 0x0c) >>> 4) &&& 0x03 = y ∧
    ((shiftMask x 6 0xc0 ||| shiftMask y 4 0x30 ||| shiftMask z 2 0x0c) >>> 2) &&& 0x03 = z := by
  obtain ⟨l, hl, rfl⟩ := exists_ofNat (b := 4) (by norm_num) hx
  obtain ⟨m, hm, rfl⟩ := exists_ofNat (b := 4) (by norm_num) hy
  obtain ⟨n, hn, rfl⟩ := exists_ofNat (b := 4) (by norm_num) hz
  clear hx hy hz
  revert l m n
  decide

/-! ## Reading what follows a prefix -/

section
variable (l r : List UInt8) (i : Nat)

@[simp] theorem byte_append : byte (l ++ r) (l.length + i) = byte r i := by
  simp [byte, List.getElem?_append_right]

@[simp] theorem taskGetUint8_append :
    taskGetUint8 (l ++ r) (l.length + i) = taskGetUint8 r i := by
  have hiff : l.length + i + 1 ≤ (l ++ r).length ↔ i + 1 ≤ r.length := by
    rw [List.length_append]
    omega
  simp only [taskGetUint8, hiff, byte_append]

@[simp] theorem taskGetUint16_append :
    taskGetUint16 (l ++ r) (l.length + i) = taskGetUint16 r i := by
  have hiff : l.length + i + 2 ≤ (l ++ r).length ↔ i + 2 ≤ r.length := by
    rw [List.length_append]
    omega
  simp only [taskGetUint16, hiff]
  simp only [scsiGetUint16, Nat.add_assoc, byte_append]

@[simp] theorem taskGetUint32_append :
    taskGetUint32 (l ++ r) (l.length + i) = taskGetUint32 r i := by
  have hiff : l.length + i + 4 ≤ (l ++ r).length ↔ i + 4 ≤ r.length := by
    rw [List.length_append]
    omega
  simp only [taskGetUint32, hiff]
  simp only [scsiGetUint32, Nat.add_assoc, byte_append]

/-- The fields of a page are read from where it starts. -/
theorem parseModePage_append (pageCode : UInt8) :
    parseModePage (l ++ r) l.length pageCode = parseModePage r 0 pageCode := by
  have hzero : taskGetUint8 (l ++ r) l.length = taskGetUint8 r 0 := taskGetUint8_append l r 0
  unfold parseModePage
  simp only [scsiParseModeCaching, scsiParseModeControl, scsiParseModeDisconnectReconnect,
    scsiParseModeInformationalExceptionsControl, scsiParseModePowerCondition,
    taskGetUint8_append, taskGetUint16_append, taskGetUint32_append, hzero, Nat.zero_add]

end

/-- **The data of a MODE SENSE with one page is unpacked as that page.** -/
theorem unmarshall_page (six : Bool) {b c : UInt8} (body : List UInt8)
    (hb : testMask b 0x40 = false) (hc : c.toNat = body.length) :
    ∃ ms, scsiModesenseDatainUnmarshall
        (List.replicate (modeHeaderSize six) 0 ++ b :: c :: body) six = some ms ∧
      ms.pages = [{ ps := testMask b 0x80, spf := false, len := body.length
                    data := parseModePage body 0 (b &&& 0x3f) }] := by
  set l : List UInt8 := List.replicate (modeHeaderSize six) 0 with hl
  set d := l ++ b :: c :: body with hd
  have hlen : l.length = modeHeaderSize six := List.length_replicate
  have hdlen : d.length = l.length + 2 + body.length := by
    rw [hd, List.length_append, List.length_cons, List.length_cons]
    omega
  -- the turn that reads the page
  have hturn : parseModePages d d.length l.length [] =
      [{ ps := testMask b 0x80, spf := false, len := body.length
         data := parseModePage body 0 (b &&& 0x3f) }] := by
    have hb' : taskGetUint8 d l.length = b := by
      have happ := taskGetUint8_append l (b :: c :: body) 0
      rw [Nat.add_zero] at happ
      rw [hd, happ]
      simp [taskGetUint8, byte]
    have hc' : taskGetUint8 d (l.length + 1) = c := by
      rw [hd, taskGetUint8_append]
      simp [taskGetUint8, byte]
    have hpage : parseModePage d (l.length + 2) (b &&& 0x3f) =
        parseModePage body 0 (b &&& 0x3f) := by
      have := parseModePage_append (l ++ [b, c]) body (b &&& 0x3f)
      simpa [hd] using this
    obtain ⟨fuel, hfuel⟩ : ∃ fuel, d.length = fuel + 2 := ⟨d.length - 2, by omega⟩
    rw [hfuel, parseModePages, if_pos (by omega)]
    simp only [hb', hb, Bool.false_eq_true, if_false, hc', hc, hpage]
    rw [parseModePages, if_neg (by omega)]
  have hbyte : ∀ i < modeHeaderSize six, byte d i = 0 := fun i hi => by
    have hget : d[i]? = some 0 := by
      rw [hd, List.getElem?_append_left (by omega), hl, List.getElem?_replicate_of_lt hi]
    simp [byte, hget]
  have huint8 : ∀ i < modeHeaderSize six, taskGetUint8 d i = 0 := fun i hi => by
    rw [taskGetUint8, if_pos (by omega), hbyte i hi]
  have huint16 : ∀ i, i + 1 < modeHeaderSize six → taskGetUint16 d i = 0 := fun i hi => by
    rw [taskGetUint16, if_pos (by omega), scsiGetUint16, hbyte i (by omega), hbyte (i + 1) hi]
    rfl
  unfold scsiModesenseDatainUnmarshall
  rw [if_neg (by omega)]
  cases six with
  | true =>
    simp only [if_true, huint8 0 (by decide), huint8 3 (by decide)]
    rw [if_neg (by rw [hdlen]; simp)]
    exact ⟨_, rfl, by rw [← hturn, hlen]; rfl⟩
  | false =>
    simp only [Bool.false_eq_true, if_false, huint16 0 (by decide), huint16 6 (by decide)]
    rw [if_neg (by rw [hdlen]; simp)]
    exact ⟨_, rfl, by rw [← hturn, hlen]; rfl⟩

/-- **The data of a MODE SELECT**: zeros for the header, and the page. -/
theorem marshall_page {mp : ScsiModePage} {page : List UInt8} (six : Bool) (hspf : mp.spf = false)
    (h : mp.data.marshall = some page) :
    scsiModesenseDataoutMarshall mp six = some (List.replicate (modeHeaderSize six) 0 ++
      ((mp.data.pageCode &&& 0x3f) ||| maskIf mp.ps 0x80) :: UInt8.ofNat mp.data.bodySize ::
        page.drop 2) := by
  obtain ⟨body, rfl, hsize⟩ : ∃ body, page = 0 :: 0 :: body ∧ body.length = mp.data.bodySize := by
    cases hdata : mp.data with
    | other c =>
      rw [hdata] at h
      cases h
    | _ p =>
      rw [hdata] at h
      obtain rfl := Option.some.inj h
      exact ⟨_, rfl, rfl⟩
  unfold scsiModesenseDataoutMarshall
  rw [h, Option.map_some]
  have hor : (mp.data.pageCode &&& 0x3f) ||| maskIf mp.ps 0x80 ||| maskIf mp.spf 0x40 =
      (mp.data.pageCode &&& 0x3f) ||| maskIf mp.ps 0x80 := by
    rw [hspf]
    exact UInt8.or_zero
  rw [hspf] at hor
  simp only [hspf, hor, Bool.false_eq_true, if_false, List.length_cons, hsize]
  have hlen : modeHeaderSize six + (mp.data.bodySize + 1 + 1) - modeHeaderSize six - 2 =
      mp.data.bodySize := by omega
  rw [hlen]
  cases six <;> rfl

/-! ## The page that is read -/

/-- The page that is unpacked from what a page is packed into. -/
def ModePageData.reread (data : ModePageData) : ModePageData :=
  parseModePage ((data.marshall.getD []).drop 2) 0 data.pageCode

/-- A page round-trips when it is read as it was. -/
theorem roundTrips_iff_reread {mp : ScsiModePage} {six : Bool} (hspf : mp.spf = false)
    (hfits : mp.data.Fits) : RoundTrips mp six ↔ mp.data.reread = mp.data := by
  obtain ⟨page, hpage, hcode, hsize, hlt⟩ : ∃ page, mp.data.marshall = some page ∧
      (∀ ps, ((mp.data.pageCode &&& 0x3f) ||| maskIf ps 0x80) &&& 0x3f = mp.data.pageCode ∧
        testMask ((mp.data.pageCode &&& 0x3f) ||| maskIf ps 0x80) 0x40 = false ∧
        testMask ((mp.data.pageCode &&& 0x3f) ||| maskIf ps 0x80) 0x80 = ps) ∧
      (page.drop 2).length = mp.data.bodySize ∧ mp.data.bodySize < 256 := by
    cases hdata : mp.data with
    | other c =>
      rw [hdata] at hfits
      cases hfits
    | _ p =>
      refine ⟨_, rfl, fun ps => ?_, rfl, by simp [ModePageData.bodySize]⟩
      cases ps <;> simp only [ModePageData.pageCode, maskIf] <;> decide
  set b := (mp.data.pageCode &&& 0x3f) ||| maskIf mp.ps 0x80 with hb
  obtain ⟨hbcode, hspfBit, hps⟩ := hcode mp.ps
  rw [← hb] at hbcode hspfBit hps
  obtain ⟨ms, hms, hpages⟩ := unmarshall_page six (page.drop 2)
    (c := UInt8.ofNat mp.data.bodySize) hspfBit
    (by rw [UInt8.toNat_ofNat', hsize, Nat.mod_eq_of_lt hlt])
  have hread : parseModePage (page.drop 2) 0 (b &&& 0x3f) = mp.data.reread := by
    rw [hbcode, ModePageData.reread, hpage, Option.getD_some]
  rw [hread, hps, hsize] at hpages
  have hdata := marshall_page six hspf hpage
  constructor
  · rintro ⟨data, ms', p, hdata', hms', hpages', _, _, _, hp⟩
    obtain rfl := Option.some.inj (hdata.symm.trans hdata')
    obtain rfl := Option.some.inj (hms.symm.trans hms')
    obtain rfl := List.singleton_inj.1 (hpages.symm.trans hpages')
    exact hp
  · intro h
    exact ⟨_, ms, _, hdata, hms, hpages, rfl, hspf.symm, rfl, h⟩

/-- The fields that are read as they were. -/
def ModePageData.Survives : ModePageData → Prop
  | control p => p.vs = false ∧ p.rac = false ∧ p.autoloadMode ≤ 1
  | disconnectReconnect p => p.emdp = false
  | _ => True

theorem reread_caching {p : ModePageCaching} (h : (ModePageData.caching p).Fits) :
    (ModePageData.caching p).reread = .caching p := by
  simp [ModePageData.reread, ModePageData.marshall, ModePageData.pageCode, parseModePage,
    scsiModesenseMarshallCaching, scsiParseModeCaching, uint16Bytes, taskGetUint8, taskGetUint16,
    scsiGetUint16, byte, caching_flags, caching_fsw, caching_priorities h.1 h.2, uint16_bytes]

theorem reread_iec {p : ModePageInformationalExceptionsControl} (h : (ModePageData.iec p).Fits) :
    (ModePageData.iec p).reread = .iec p := by
  simp [ModePageData.reread, ModePageData.marshall, ModePageData.pageCode, parseModePage,
    scsiModesenseMarshallInformationalExceptionsControl,
    scsiParseModeInformationalExceptionsControl, uint32Bytes, taskGetUint8, taskGetUint32,
    scsiGetUint32, byte, iec_flags, iec_mrie h, -UInt32.toUInt32_toUInt8, uint32_bytes]

theorem reread_control_iff {p : ModePageControl} (h : (ModePageData.control p).Fits) :
    (ModePageData.control p).reread = .control p ↔ (ModePageData.control p).Survives := by
  obtain ⟨htst, hqueue, hqerr, hintlck, hautoload⟩ := h
  obtain ⟨hvs, hrac, hua, hswp⟩ := control_intlck hintlck p.vs p.rac p.swp
  obtain ⟨hato, htas, hatmpe, hrwwp, hload⟩ :=
    control_autoload hautoload p.ato p.tas p.atmpe p.rwwp
  simp [ModePageData.reread, ModePageData.marshall, ModePageData.pageCode, parseModePage,
    scsiModesenseMarshallControl, scsiParseModeControl, uint16Bytes, taskGetUint8, taskGetUint16,
    scsiGetUint16, byte, control_tst htst, control_queue hqueue hqerr, hvs, hrac, hswp, hato,
    htas, hatmpe, hrwwp, uint16_bytes]
  constructor
  · intro heq
    have h₁ := congrArg (·.uaIntlckCtrl) heq
    have h₂ := congrArg (·.autoloadMode) heq
    obtain ⟨hv, hr⟩ := hua.1 h₁
    exact ⟨hv, hr, hload.1 h₂⟩
  · rintro ⟨hv, hr, hl⟩
    rw [hua.2 ⟨hv, hr⟩, hload.2 hl]

theorem reread_disconnectReconnect_iff {p : ModePageDisconnectReconnect}
    (h : (ModePageData.disconnectReconnect p).Fits) :
    (ModePageData.disconnectReconnect p).reread = .disconnectReconnect p ↔
      (ModePageData.disconnectReconnect p).Survives := by
  obtain ⟨hemdp, hfair, hdimm, hdtdc⟩ := arbitration h.1 h.2 p.emdp p.dimm
  simp [ModePageData.reread, ModePageData.marshall, ModePageData.pageCode, parseModePage,
    scsiModesenseMarshallDisconnectReconnect, scsiParseModeDisconnectReconnect, uint16Bytes,
    taskGetUint8, taskGetUint16, scsiGetUint16, byte, hemdp, hdimm, hdtdc, uint16_bytes]
  constructor
  · intro heq
    exact hfair.1 (congrArg (·.fairArbitration) heq)
  · intro hv
    rw [hfair.2 hv]

theorem reread_powerCondition {p : ModePagePowerCondition}
    (h : (ModePageData.powerCondition p).Fits) :
    (ModePageData.powerCondition p).reread = .powerCondition p := by
  obtain ⟨hpm, hidle, hstandby, hstopped⟩ := h
  obtain ⟨hprec, hy⟩ := power_precedence hpm p.standbyY
  simp [ModePageData.reread, ModePageData.marshall, ModePageData.pageCode, parseModePage,
    scsiModesenseMarshallPowerCondition, scsiParseModePowerCondition, uint32Bytes, taskGetUint8,
    taskGetUint32, scsiGetUint32, byte, power_flags, power_ccf hidle hstandby hstopped, hprec, hy,
    List.replicate, -UInt32.toUInt32_toUInt8, uint32_bytes]

/-- **A page is read as it was exactly when its shared fields survive.** -/
theorem reread_iff {data : ModePageData} (h : data.Fits) :
    data.reread = data ↔ data.Survives := by
  cases data with
  | caching p => exact ⟨fun _ => trivial, fun _ => reread_caching h⟩
  | control p => exact reread_control_iff h
  | disconnectReconnect p => exact reread_disconnectReconnect_iff h
  | iec p => exact ⟨fun _ => trivial, fun _ => reread_iec h⟩
  | powerCondition p => exact ⟨fun _ => trivial, fun _ => reread_powerCondition h⟩
  | other c => cases h

/-- **The mode page round trip.** A mode page that is packed for a MODE SELECT(6) or (10) and read
back from a MODE SENSE of the same size is the one page that was packed, with all its fields,
exactly when VS, RAC and the upper autoload modes of a control page and EMDP of a
disconnect-reconnect page are not set. -/
theorem modePage_roundTrips_iff {mp : ScsiModePage} (six : Bool) (hspf : mp.spf = false)
    (hfits : mp.data.Fits) : RoundTrips mp six ↔ mp.data.Survives := by
  rw [roundTrips_iff_reread hspf hfits, reread_iff hfits]

/-- A disconnect-reconnect page. -/
def disconnectReconnectPage (emdp : Bool) : ScsiModePage where
  ps := true
  spf := false
  data := .disconnectReconnect
    { bufferFullRatio := 10, bufferEmptyRatio := 20, busInactivityLimit := 300
      disconnectTimeLimit := 0, connectTimeLimit := 5, maximumBurstSize := 512, emdp
      fairArbitration := 1, dimm := true, dtdc := 3, firstBurstSize := 128 }

/-- A page without EMDP comes back. -/
theorem modePage_roundTrips_iff_disconnect :
    RoundTrips (disconnectReconnectPage false) true ↔
      (disconnectReconnectPage false).data.Survives :=
  modePage_roundTrips_iff true rfl ⟨by decide, by decide⟩

/-- With EMDP, fair arbitration comes back as 9. -/
theorem disconnectReconnectPage_emdp :
    (disconnectReconnectPage true).spf = false ∧ (disconnectReconnectPage true).data.Fits ∧
      ¬ RoundTrips (disconnectReconnectPage true) true := by
  have hfits : (disconnectReconnectPage true).data.Fits := ⟨by decide, by decide⟩
  refine ⟨rfl, hfits, fun h => ?_⟩
  have hreread := (roundTrips_iff_reread rfl hfits).1 h
  exact absurd hreread (by decide)

end Libiscsi
