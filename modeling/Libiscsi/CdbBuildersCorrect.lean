import Libiscsi.CdbBuilders
import Libiscsi.Unmap
import Mathlib.Logic.Function.Basic
import Mathlib.Data.Fintype.Prod

/-!
# The arguments of a CDB

The arguments that have a field in a CDB can be told from its bytes: no store of a builder changes
what another one set. READ DEFECT DATA(12) is the exception, since its address descriptor index is
stored over its flags (`recovered_iff`).
-/

namespace Libiscsi

/-! ## Builders and their arguments -/

/-- The builders. -/
inductive Builder where
  | readdefectdata10
  | readdefectdata12
  | readtoc
  | reportTargetPortGroups
  | reportSupportedOpcodes
  | inquiry
  | persistentReserveIn
  | persistentReserveOut
  | modesense6
  | modesense10
  | modeselect6
  | modeselect10
  | startstopunit
  | sanitize
  | writesame10
  | writesame16
  | unmap
  | synchronizecache10
  | synchronizecache16
  | prefetch10
  | prefetch16
  | getLbaStatus
  deriving DecidableEq, Repr

namespace Builder

/-- The arguments that have a field in the CDB, each as wide as its field, in the order of the
parameters. The formats of READ TOC and the service actions of PERSISTENT RESERVE OUT are those that
are not refused; of the data length of WRITE SAME(16), only whether it is zero has a field. -/
def Args : Builder → Type
  | readdefectdata10 => Bool × Bool × Fin 8 × UInt16
  | readdefectdata12 => Bool × Bool × Fin 8 × UInt32 × UInt32
  | readtoc => Bool × Fin 3 × UInt8 × UInt16
  | reportTargetPortGroups => UInt32
  | reportSupportedOpcodes => Bool × Fin 8 × UInt8 × UInt16 × UInt32
  | inquiry => Bool × UInt8 × UInt16
  | persistentReserveIn => Fin 32 × UInt16
  | persistentReserveOut => Fin 7 × Fin 16 × Fin 16
  | modesense6 => Bool × Fin 4 × Fin 64 × UInt8 × UInt8
  | modesense10 => Bool × Bool × Fin 4 × Fin 64 × UInt8 × UInt8
  | modeselect6 => Bool × Bool × UInt8
  | modeselect10 => Bool × Bool × UInt16
  | startstopunit => Bool × Fin 16 × Fin 16 × Bool × Bool × Bool
  | sanitize => Bool × Bool × Fin 32 × UInt16
  | writesame10 => Fin 8 × Bool × Bool × UInt32 × Fin 32 × UInt16
  | writesame16 => Fin 8 × Bool × Bool × UInt64 × Fin 32 × UInt32 × Bool
  | unmap => Bool × Fin 32 × UInt16
  | synchronizecache10 => UInt32 × UInt16 × Bool × Bool
  | synchronizecache16 => UInt64 × UInt32 × Bool × Bool
  | prefetch10 => UInt32 × UInt16 × Bool × Fin 32
  | prefetch16 => UInt64 × UInt32 × Bool × Fin 32
  | getLbaStatus => UInt64 × UInt32

/-- An argument of type `int`. -/
def arg {n : Nat} (k : Fin n) : UInt32 := UInt32.ofNat k

/-- The arguments give the CDB, with any values of the arguments that have no field. The number of
READ TOC has no field in the format of session information, and is zero there. -/
def Produces : (b : Builder) → b.Args → List UInt8 → Prop
  | readdefectdata10, (p, g, f, n), c => (scsiCdbReaddefectdata10 p g (arg f) n).cdb = c
  | readdefectdata12, (p, g, f, i, n), c => (scsiCdbReaddefectdata12 p g (arg f) i n).cdb = c
  | readtoc, (msf, format, number, n), c => (format = 1 → number = 0) ∧
      ∃ trackSession : UInt32, (format ≠ 1 → trackSession = number.toUInt32) ∧
        (scsiCdbReadtoc msf (arg format) trackSession n).map ScsiTask.cdb = some c
  | reportTargetPortGroups, n, c => (scsiCdbReportTargetPortGroups n).cdb = c
  | reportSupportedOpcodes, (rctd, options, opcode, sa, n), c =>
      (scsiCdbReportSupportedOpcodes rctd (arg options) opcode.toUInt32 sa.toUInt32 n).cdb = c
  | inquiry, (evpd, page, n), c => (scsiCdbInquiry evpd page.toUInt32 n.toUInt32).cdb = c
  | persistentReserveIn, (sa, n), c => (scsiCdbPersistentReserveIn (arg sa) n).cdb = c
  | persistentReserveOut, (sa, scope, type), c => ∃ basic,
      (scsiCdbPersistentReserveOut (arg sa) (arg scope) (arg type) basic).map (·.1.cdb) = some c
  | modesense6, (dbd, pc, page, sub, n), c =>
      (scsiCdbModesense6 dbd (arg pc) (arg page) sub.toUInt32 n).cdb = c
  | modesense10, (llbaa, dbd, pc, page, sub, n), c =>
      (scsiCdbModesense10 llbaa dbd (arg pc) (arg page) sub.toUInt32 n).cdb = c
  | modeselect6, (pf, sp, n), c => (scsiCdbModeselect6 pf sp n.toUInt32).cdb = c
  | modeselect10, (pf, sp, n), c => (scsiCdbModeselect10 pf sp n.toUInt32).cdb = c
  | startstopunit, (immed, pcm, pc, noFlush, loej, start), c =>
      (scsiCdbStartstopunit immed (arg pcm) (arg pc) noFlush loej start).cdb = c
  | sanitize, (immed, ause, sa, n), c => (scsiCdbSanitize immed ause (arg sa) n.toUInt32).cdb = c
  | writesame10, (protect, anchor, unmap', lba, group, n), c => ∃ datalen,
      (scsiCdbWritesame10 (arg protect) anchor unmap' lba (arg group) n datalen).cdb = c
  | writesame16, (protect, anchor, unmap', lba, group, n, noData), c => ∃ datalen : UInt32,
      (datalen == 0) = noData ∧
        (scsiCdbWritesame16 (arg protect) anchor unmap' lba (arg group) n datalen).cdb = c
  | unmap, (anchor, group, n), c =>
      ∃ anchor', (anchor = true ↔ anchor' ≠ 0) ∧ (scsiCdbUnmap anchor' (arg group) n).cdb = c
  | synchronizecache10, (lba, n, syncnv, immed), c =>
      (scsiCdbSynchronizecache10 lba n.toUInt32 syncnv immed).cdb = c
  | synchronizecache16, (lba, n, syncnv, immed), c =>
      (scsiCdbSynchronizecache16 lba n syncnv immed).cdb = c
  | prefetch10, (lba, n, immed, group), c =>
      (scsiCdbPrefetch10 lba n.toUInt32 immed (arg group)).cdb = c
  | prefetch16, (lba, n, immed, group), c =>
      (scsiCdbPrefetch16 lba n immed (arg group)).cdb = c
  | getLbaStatus, (lba, n), c => (scsiCdbGetLbaStatus lba n).cdb = c

/-- The arguments can be told from the CDB that they give. -/
def Recovered (b : Builder) (x : b.Args) : Prop :=
  ∀ c, b.Produces x c → ∀ y, b.Produces y c → y = x

end Builder

/-! ## Numbers of several bytes -/

theorem uint16_of_bytes {v w : UInt16} (h : (v >>> 8).toUInt8 = (w >>> 8).toUInt8)
    (h' : v.toUInt8 = w.toUInt8) : v = w := by
  have hv : scsiGetUint16 (scsiSetUint16 [0, 0] 0 v) 0 = v := scsiGetUint16_set (by decide)
  have hw : scsiGetUint16 (scsiSetUint16 [0, 0] 0 w) 0 = w := scsiGetUint16_set (by decide)
  rw [← hv, ← hw]
  unfold scsiSetUint16
  rw [h, h']

theorem uint32_of_bytes {v w : UInt32} (h₃ : (v >>> 24).toUInt8 = (w >>> 24).toUInt8)
    (h₂ : (v >>> 16).toUInt8 = (w >>> 16).toUInt8) (h₁ : (v >>> 8).toUInt8 = (w >>> 8).toUInt8)
    (h₀ : v.toUInt8 = w.toUInt8) : v = w := by
  have hv : scsiGetUint32 (scsiSetUint32 [0, 0, 0, 0] 0 v) 0 = v := scsiGetUint32_set (by decide)
  have hw : scsiGetUint32 (scsiSetUint32 [0, 0, 0, 0] 0 w) 0 = w := scsiGetUint32_set (by decide)
  rw [← hv, ← hw]
  unfold scsiSetUint32
  rw [h₃, h₂, h₁, h₀]

/-! ## Bytes of several fields -/

section
open Builder

theorem flag_injective {m : UInt8} (hm : m ≠ 0) {b b' : Bool}
    (h : 0 ||| (if b then m else 0) = 0 ||| (if b' then m else 0)) : b = b' := by
  cases b <;> cases b' <;> simp_all

/-- Two flags in a byte. -/
def twoFlags (m m' : UInt8) (x : Bool × Bool) : UInt8 :=
  0 ||| (if x.1 then m else 0) ||| (if x.2 then m' else 0)

theorem twoFlags_injective {m : UInt8} (hm : m = 0x08 ∨ m = 0x01) {x y : Bool × Bool}
    (h : twoFlags 0x10 m x = twoFlags 0x10 m y) : x = y := by
  rcases hm with rfl | rfl
  · exact (show Function.Injective (twoFlags 0x10 0x08) by decide) h
  · exact (show Function.Injective (twoFlags 0x10 0x01) by decide) h

/-- The flags and the format of READ DEFECT DATA. -/
def defectByte (x : Bool × Bool × Fin 8) : UInt8 :=
  0 ||| (if x.1 then 0x10 else 0) ||| (if x.2.1 then 0x08 else 0) |||
    (arg x.2.2 &&& 0x07).toUInt8

theorem defectByte_injective : Function.Injective defectByte :=
  Function.LeftInverse.injective (g := fun b =>
    (b &&& 0x10 != 0, b &&& 0x08 != 0, Fin.ofNat 8 b.toNat))
    (show ∀ x, _ by decide)

/-- The options of REPORT SUPPORTED OPERATION CODES. -/
def optionsByte (x : Bool × Fin 8) : UInt8 :=
  (arg x.2 &&& 0x07).toUInt8 ||| (if x.1 then 0x80 else 0)

theorem optionsByte_injective : Function.Injective optionsByte :=
  Function.LeftInverse.injective (g := fun b => (b &&& 0x80 != 0, Fin.ofNat 8 b.toNat))
    (show ∀ x, _ by decide)

/-- The service action and the flags of SANITIZE. -/
def sanitizeByte (x : Bool × Bool × Fin 32) : UInt8 :=
  (arg x.2.2 &&& 0x1f).toUInt8 ||| (if x.1 then 0x80 else 0) ||| (if x.2.1 then 0x20 else 0)

theorem sanitizeByte_injective : Function.Injective sanitizeByte :=
  Function.LeftInverse.injective (g := fun b =>
    (b &&& 0x80 != 0, b &&& 0x20 != 0, Fin.ofNat 32 b.toNat))
    (show ∀ x, _ by decide +kernel)

/-- The power condition and the flags of START STOP UNIT. -/
def startstopByte (x : Fin 16 × Bool × Bool × Bool) : UInt8 :=
  (0 : UInt8) ||| ((arg x.1 <<< 4) &&& 0xf0).toUInt8 ||| (if x.2.1 then 0x04 else 0) |||
    (if x.2.2.1 then 0x02 else 0) ||| (if x.2.2.2 then 0x01 else 0)

theorem startstopByte_injective : Function.Injective startstopByte :=
  Function.LeftInverse.injective (g := fun b =>
    (Fin.ofNat 16 (b.toNat / 16), b &&& 0x04 != 0, b &&& 0x02 != 0, b &&& 0x01 != 0))
    (show ∀ x, _ by decide +kernel)

/-- The page and what is asked for of it. -/
def pageByte (x : Fin 4 × Fin 64) : UInt8 := ((arg x.1 <<< 6) ||| arg x.2).toUInt8

theorem pageByte_injective : Function.Injective pageByte :=
  Function.LeftInverse.injective (g := fun b => (Fin.ofNat 4 (b.toNat / 64), Fin.ofNat 64 b.toNat))
    (show ∀ x, _ by decide +kernel)

/-- The scope and the type of PERSISTENT RESERVE OUT. -/
def scopeByte (x : Fin 16 × Fin 16) : UInt8 :=
  (((arg x.1 <<< 4) &&& 0xf0) ||| (arg x.2 &&& 0x0f)).toUInt8

theorem scopeByte_injective : Function.Injective scopeByte :=
  Function.LeftInverse.injective (g := fun b => (Fin.ofNat 16 (b.toNat / 16), Fin.ofNat 16 b.toNat))
    (show ∀ x, _ by decide +kernel)

theorem writesameFlags_injective : Function.Injective fun x : Fin 8 × Bool × Bool × Bool =>
    writesameFlags (arg x.1) x.2.1 x.2.2.1 x.2.2.2 :=
  Function.LeftInverse.injective (g := fun b =>
    (Fin.ofNat 8 (b.toNat / 32), b &&& 0x10 != 0, b &&& 0x08 != 0, b &&& 0x01 != 0))
    (show ∀ x, _ by decide +kernel)

theorem synchronizecacheFlags_injective : Function.Injective fun x : Bool × Bool =>
    synchronizecacheFlags x.1 x.2 := by
  decide

/-- A number of five bits. -/
theorem five_injective : Function.Injective fun k : Fin 32 => 0 ||| (arg k &&& 0x1f).toUInt8 :=
  Function.LeftInverse.injective (g := fun b => Fin.ofNat 32 b.toNat) (show ∀ x, _ by decide)

/-- A number of four bits. -/
theorem four_injective : Function.Injective fun k : Fin 16 => 0 ||| (arg k &&& 0x0f).toUInt8 :=
  Function.LeftInverse.injective (g := fun b => Fin.ofNat 16 b.toNat) (show ∀ x, _ by decide)

end

/-! ## The builders -/

namespace Builder

theorem readdefectdata10_recovered (x : Args readdefectdata10) : Recovered readdefectdata10 x := by
  obtain ⟨p, g, f, n⟩ := x
  rintro c rfl ⟨p', g', f', n'⟩ h
  have hflags : (p', g', f') = (p, g, f) := defectByte_injective (congrArg (byte · 2) h)
  have hn : n' = n := uint16_of_bytes (congrArg (byte · 7) h) (congrArg (byte · 8) h)
  cases hflags
  cases hn
  rfl

/-- The flags of READ DEFECT DATA(12) are written over. -/
theorem readdefectdata12_not_recovered (x : Args readdefectdata12) :
    ¬Recovered readdefectdata12 x := by
  obtain ⟨p, g, f, i, n⟩ := x
  intro h
  have hsame := h _ rfl (!p, g, f, i, n) rfl
  have hp : (!p) = p := congrArg Prod.fst hsame
  cases p with
  | true => cases hp
  | false => cases hp

/-- The bytes of READ TOC before the track number. -/
theorem byte_readtoc {p : Prop} [Decidable p] {c : List UInt8} {v : UInt8} {n : UInt16} {j : Nat}
    (hj : j < 6) : byte (scsiSetUint16 (if p then c.set 6 v else c) 7 n) j = byte c j := by
  rw [byte_scsiSetUint16 (by omega)]
  split
  · exact byte_set_ne (by omega)
  · rfl

/-- The track number of READ TOC, where it has a field, and the allocation length. -/
theorem length_readtoc {p : Prop} [Decidable p] {c : List UInt8} {v : UInt8} {n : UInt16}
    (hc : c.length = 10) :
    byte (scsiSetUint16 (if p then c.set 6 v else c) 7 n) 6 = (if p then v else byte c 6) ∧
      scsiGetUint16 (scsiSetUint16 (if p then c.set 6 v else c) 7 n) 7 = n := by
  rw [byte_scsiSetUint16 (by omega)]
  split
  · exact ⟨byte_set_eq (by omega), scsiGetUint16_set (by rw [List.length_set]; omega)⟩
  · exact ⟨rfl, scsiGetUint16_set (by omega)⟩

theorem readtoc_recovered (x : Args readtoc) : Recovered readtoc x := by
  obtain ⟨msf, format, number, n⟩ := x
  rintro c ⟨hzero, track, htrack, hrun⟩ ⟨msf', format', number', n'⟩
    ⟨hzero', track', htrack', hrun'⟩
  have hsupported : ∀ k : Fin 3, ¬(arg k ≠ 0 ∧ arg k ≠ 1 ∧ arg k ≠ 2) := by decide
  have hformats : ∀ k k' : Fin 3, (arg k &&& 0xf).toUInt8 = (arg k' &&& 0xf).toUInt8 → k = k' := by
    decide
  have hfield : ∀ k : Fin 3, k ≠ 1 → arg k = 0 ∨ arg k = 2 := by decide
  unfold scsiCdbReadtoc at hrun hrun'
  rw [if_neg (hsupported format)] at hrun
  rw [if_neg (hsupported format')] at hrun'
  obtain rfl := Option.some.inj hrun
  have h := Option.some.inj hrun'
  simp only [transferTask] at h
  have hmsf : msf' = msf := flag_injective (m := 0x02) (by decide)
    ((byte_readtoc (by decide)).symm.trans
      ((congrArg (byte · 1) h).trans (byte_readtoc (by decide))))
  have hformat : format' = format := hformats _ _ ((byte_readtoc (by decide)).symm.trans
    ((congrArg (byte · 2) h).trans (byte_readtoc (by decide))))
  cases hmsf
  cases hformat
  obtain ⟨hbyte, hlen⟩ := length_readtoc (p := arg format = 0 ∨ arg format = 2)
    (c := (orIf (opcodeCdb 10 0x43) 1 msf 0x02).set 2 (arg format &&& 0xf).toUInt8)
    (v := (0xff &&& track).toUInt8) (n := n) (by simp [orIf, orByte, opcodeCdb])
  obtain ⟨hbyte', hlen'⟩ := length_readtoc (p := arg format = 0 ∨ arg format = 2)
    (c := (orIf (opcodeCdb 10 0x43) 1 msf 0x02).set 2 (arg format &&& 0xf).toUInt8)
    (v := (0xff &&& track').toUInt8) (n := n') (by simp [orIf, orByte, opcodeCdb])
  rw [h] at hbyte' hlen'
  have hn : n' = n := hlen'.symm.trans hlen
  have hnumber : number' = number := by
    by_cases hsession : format = 1
    · rw [hzero hsession, hzero' hsession]
    · have hmask : ∀ v : UInt8, (0xff &&& v.toUInt32).toUInt8 = v := by
        intro v
        rw [UInt32.toUInt8_and, UInt8.toUInt8_toUInt32]
        exact UInt8.neg_one_and
      have hsame := hbyte'.symm.trans hbyte
      rw [if_pos (hfield format hsession), if_pos (hfield format hsession), htrack hsession,
        htrack' hsession, hmask, hmask] at hsame
      exact hsame
  rw [hn, hnumber]

theorem reportTargetPortGroups_recovered (x : Args reportTargetPortGroups) :
    Recovered reportTargetPortGroups x := by
  rintro c rfl y h
  exact uint32_of_bytes (congrArg (byte · 6) h) (congrArg (byte · 7) h) (congrArg (byte · 8) h)
    (congrArg (byte · 9) h)

theorem reportSupportedOpcodes_recovered (x : Args reportSupportedOpcodes) :
    Recovered reportSupportedOpcodes x := by
  obtain ⟨rctd, options, opcode, sa, n⟩ := x
  rintro c rfl ⟨rctd', options', opcode', sa', n'⟩ h
  have hoptions : (rctd', options') = (rctd, options) :=
    optionsByte_injective (congrArg (byte · 2) h)
  have hopcode : opcode'.toUInt32.toUInt8 = opcode.toUInt32.toUInt8 := congrArg (byte · 3) h
  have hsa : sa'.toUInt32.toUInt16 = sa.toUInt32.toUInt16 :=
    uint16_of_bytes (congrArg (byte · 4) h) (congrArg (byte · 5) h)
  have hn : n' = n := uint32_of_bytes (congrArg (byte · 6) h) (congrArg (byte · 7) h)
    (congrArg (byte · 8) h) (congrArg (byte · 9) h)
  rw [UInt8.toUInt8_toUInt32, UInt8.toUInt8_toUInt32] at hopcode
  rw [UInt16.toUInt16_toUInt32, UInt16.toUInt16_toUInt32] at hsa
  cases hoptions
  cases hopcode
  cases hsa
  cases hn
  rfl

theorem inquiry_recovered (x : Args inquiry) : Recovered inquiry x := by
  obtain ⟨evpd, page, n⟩ := x
  rintro c rfl ⟨evpd', page', n'⟩ h
  have hevpd : evpd' = evpd := flag_injective (m := 0x01) (by decide) (congrArg (byte · 1) h)
  have hpage : page'.toUInt32.toUInt8 = page.toUInt32.toUInt8 := congrArg (byte · 2) h
  have hn : n'.toUInt32.toUInt16 = n.toUInt32.toUInt16 :=
    uint16_of_bytes (congrArg (byte · 3) h) (congrArg (byte · 4) h)
  rw [UInt8.toUInt8_toUInt32, UInt8.toUInt8_toUInt32] at hpage
  rw [UInt16.toUInt16_toUInt32, UInt16.toUInt16_toUInt32] at hn
  cases hevpd
  cases hpage
  cases hn
  rfl

theorem persistentReserveIn_recovered (x : Args persistentReserveIn) :
    Recovered persistentReserveIn x := by
  obtain ⟨sa, n⟩ := x
  rintro c rfl ⟨sa', n'⟩ h
  have hsa : sa' = sa := five_injective (congrArg (byte · 1) h)
  have hn : n' = n := uint16_of_bytes (congrArg (byte · 7) h) (congrArg (byte · 8) h)
  cases hsa
  cases hn
  rfl

theorem persistentReserveOut_recovered (x : Args persistentReserveOut) :
    Recovered persistentReserveOut x := by
  obtain ⟨sa, scope, type⟩ := x
  rintro c ⟨basic, hrun⟩ ⟨sa', scope', type'⟩ ⟨basic', hrun'⟩
  have hle : ∀ k : Fin 7, arg k ≤ 6 := by decide
  unfold scsiCdbPersistentReserveOut at hrun hrun'
  rw [if_pos (hle sa)] at hrun
  rw [if_pos (hle sa')] at hrun'
  obtain rfl := Option.some.inj hrun
  have h := Option.some.inj hrun'
  have hservice : ∀ k k' : Fin 7, 0 ||| (arg k &&& 0x1f).toUInt8 = 0 ||| (arg k' &&& 0x1f).toUInt8 →
      k = k' := by
    decide
  have hsa : sa' = sa := hservice sa' sa (congrArg (byte · 1) h)
  have hscope : (scope', type') = (scope, type) := scopeByte_injective (congrArg (byte · 2) h)
  cases hsa
  cases hscope
  rfl

theorem modesense6_recovered (x : Args modesense6) : Recovered modesense6 x := by
  obtain ⟨dbd, pc, page, sub, n⟩ := x
  rintro c rfl ⟨dbd', pc', page', sub', n'⟩ h
  have hdbd : dbd' = dbd := flag_injective (m := 0x08) (by decide) (congrArg (byte · 1) h)
  have hpage : (pc', page') = (pc, page) := pageByte_injective (congrArg (byte · 2) h)
  have hsub : sub'.toUInt32.toUInt8 = sub.toUInt32.toUInt8 := congrArg (byte · 3) h
  have hn : n' = n := congrArg (byte · 4) h
  rw [UInt8.toUInt8_toUInt32, UInt8.toUInt8_toUInt32] at hsub
  cases hdbd
  cases hpage
  cases hsub
  cases hn
  rfl

theorem modesense10_recovered (x : Args modesense10) : Recovered modesense10 x := by
  obtain ⟨llbaa, dbd, pc, page, sub, n⟩ := x
  rintro c rfl ⟨llbaa', dbd', pc', page', sub', n'⟩ h
  have hflags : (llbaa', dbd') = (llbaa, dbd) :=
    twoFlags_injective (.inl rfl) (congrArg (byte · 1) h)
  have hpage : (pc', page') = (pc, page) := pageByte_injective (congrArg (byte · 2) h)
  have hsub : sub'.toUInt32.toUInt8 = sub.toUInt32.toUInt8 := congrArg (byte · 3) h
  have hn : n'.toUInt16 = n.toUInt16 :=
    uint16_of_bytes (congrArg (byte · 7) h) (congrArg (byte · 8) h)
  have hn' := congrArg UInt16.toUInt8 hn
  rw [UInt8.toUInt8_toUInt32, UInt8.toUInt8_toUInt32] at hsub
  rw [UInt8.toUInt8_toUInt16, UInt8.toUInt8_toUInt16] at hn'
  cases hflags
  cases hpage
  cases hsub
  cases hn'
  rfl

theorem modeselect6_recovered (x : Args modeselect6) : Recovered modeselect6 x := by
  obtain ⟨pf, sp, n⟩ := x
  rintro c rfl ⟨pf', sp', n'⟩ h
  have hflags : (pf', sp') = (pf, sp) :=
    twoFlags_injective (.inr rfl) (congrArg (byte · 1) h)
  have hn : n'.toUInt32.toUInt8 = n.toUInt32.toUInt8 := congrArg (byte · 4) h
  rw [UInt8.toUInt8_toUInt32, UInt8.toUInt8_toUInt32] at hn
  cases hflags
  cases hn
  rfl

theorem modeselect10_recovered (x : Args modeselect10) : Recovered modeselect10 x := by
  obtain ⟨pf, sp, n⟩ := x
  rintro c rfl ⟨pf', sp', n'⟩ h
  have hflags : (pf', sp') = (pf, sp) :=
    twoFlags_injective (.inr rfl) (congrArg (byte · 1) h)
  have hn : n'.toUInt32.toUInt16 = n.toUInt32.toUInt16 :=
    uint16_of_bytes (congrArg (byte · 7) h) (congrArg (byte · 8) h)
  rw [UInt16.toUInt16_toUInt32, UInt16.toUInt16_toUInt32] at hn
  cases hflags
  cases hn
  rfl

theorem startstopunit_recovered (x : Args startstopunit) : Recovered startstopunit x := by
  obtain ⟨immed, pcm, pc, noFlush, loej, start⟩ := x
  rintro c rfl ⟨immed', pcm', pc', noFlush', loej', start'⟩ h
  have himmed : immed' = immed := flag_injective (m := 0x01) (by decide) (congrArg (byte · 1) h)
  have hpcm : pcm' = pcm := four_injective (congrArg (byte · 3) h)
  have hflags : (pc', noFlush', loej', start') = (pc, noFlush, loej, start) :=
    startstopByte_injective (congrArg (byte · 4) h)
  cases himmed
  cases hpcm
  cases hflags
  rfl

theorem sanitize_recovered (x : Args sanitize) : Recovered sanitize x := by
  obtain ⟨immed, ause, sa, n⟩ := x
  rintro c rfl ⟨immed', ause', sa', n'⟩ h
  have hflags : (immed', ause', sa') = (immed, ause, sa) :=
    sanitizeByte_injective (congrArg (byte · 1) h)
  have hn : n'.toUInt32.toUInt16 = n.toUInt32.toUInt16 :=
    uint16_of_bytes (congrArg (byte · 7) h) (congrArg (byte · 8) h)
  rw [UInt16.toUInt16_toUInt32, UInt16.toUInt16_toUInt32] at hn
  cases hflags
  cases hn
  rfl

theorem writesame10_recovered (x : Args writesame10) : Recovered writesame10 x := by
  obtain ⟨protect, anchor, unmap', lba, group, n⟩ := x
  rintro c ⟨datalen, rfl⟩ ⟨protect', anchor', unmap'', lba', group', n'⟩ ⟨datalen', h⟩
  have hflags : (protect', anchor', unmap'', false) = (protect, anchor, unmap', false) :=
    writesameFlags_injective (congrArg (byte · 1) h)
  have hlba : lba' = lba := uint32_of_bytes (congrArg (byte · 2) h) (congrArg (byte · 3) h)
    (congrArg (byte · 4) h) (congrArg (byte · 5) h)
  have hgroup : group' = group := five_injective (congrArg (byte · 6) h)
  have hn : n' = n := uint16_of_bytes (congrArg (byte · 7) h) (congrArg (byte · 8) h)
  cases hflags
  cases hlba
  cases hgroup
  cases hn
  rfl

theorem unmap_recovered (x : Args unmap) : Recovered unmap x := by
  obtain ⟨anchor, group, n⟩ := x
  rintro c ⟨a, ha, rfl⟩ ⟨anchor', group', n'⟩ ⟨a', ha', h⟩
  have hflag : (if a' ≠ 0 then 0x01 else 0 : UInt8) = if a ≠ 0 then 0x01 else 0 :=
    congrArg (byte · 1) h
  have hanchor : anchor' = anchor := by
    by_cases hz : a = 0 <;> by_cases hz' : a' = 0 <;> simp_all
  have hgroup : group' = group := five_injective (congrArg (byte · 6) h)
  have hn : n' = n := uint16_of_bytes (congrArg (byte · 7) h) (congrArg (byte · 8) h)
  cases hanchor
  cases hgroup
  cases hn
  rfl

theorem synchronizecache10_recovered (x : Args synchronizecache10) :
    Recovered synchronizecache10 x := by
  obtain ⟨lba, n, syncnv, immed⟩ := x
  rintro c rfl ⟨lba', n', syncnv', immed'⟩ h
  have hflags : (syncnv', immed') = (syncnv, immed) :=
    synchronizecacheFlags_injective (congrArg (byte · 1) h)
  have hlba : lba' = lba := uint32_of_bytes (congrArg (byte · 2) h) (congrArg (byte · 3) h)
    (congrArg (byte · 4) h) (congrArg (byte · 5) h)
  have hn : n'.toUInt32.toUInt16 = n.toUInt32.toUInt16 :=
    uint16_of_bytes (congrArg (byte · 7) h) (congrArg (byte · 8) h)
  rw [UInt16.toUInt16_toUInt32, UInt16.toUInt16_toUInt32] at hn
  cases hflags
  cases hlba
  cases hn
  rfl

theorem prefetch10_recovered (x : Args prefetch10) : Recovered prefetch10 x := by
  obtain ⟨lba, n, immed, group⟩ := x
  rintro c rfl ⟨lba', n', immed', group'⟩ h
  have hflag : (if immed' then 0x02 else 0 : UInt8) = if immed then 0x02 else 0 :=
    congrArg (byte · 1) h
  have himmed : immed' = immed := flag_injective (m := 0x02) (by decide) (congrArg (0 ||| ·) hflag)
  have hlba : lba' = lba := uint32_of_bytes (congrArg (byte · 2) h) (congrArg (byte · 3) h)
    (congrArg (byte · 4) h) (congrArg (byte · 5) h)
  have hgroup : group' = group := five_injective (congrArg (byte · 6) h)
  have hn : n'.toUInt32.toUInt16 = n.toUInt32.toUInt16 :=
    uint16_of_bytes (congrArg (byte · 7) h) (congrArg (byte · 8) h)
  rw [UInt16.toUInt16_toUInt32, UInt16.toUInt16_toUInt32] at hn
  cases himmed
  cases hlba
  cases hgroup
  cases hn
  rfl

/-! ## CDBs of sixteen bytes -/

section
variable {op f f' : UInt8} {lba lba' : UInt64} {n n' : UInt32} {g g' : Fin 32}

/-- The fields of a CDB of sixteen bytes are read back. -/
theorem blocks16_spec : byte (setBlocks16 (startCdb 16 op f) lba n) 1 = f ∧
    scsiGetUint64 (setBlocks16 (startCdb 16 op f) lba n) 2 = lba ∧
    scsiGetUint32 (setBlocks16 (startCdb 16 op f) lba n) 10 = n := by
  refine ⟨?_, setBlocks16_spec lba n length_startCdb⟩
  rw [byte_setBlocks16 (.inl (by decide)), byte_startCdb_one (by decide)]

theorem blocks16_inj
    (h : setBlocks16 (startCdb 16 op f) lba n = setBlocks16 (startCdb 16 op f') lba' n') :
    f = f' ∧ lba = lba' ∧ n = n' := by
  obtain ⟨hf, hlba, hn⟩ := @blocks16_spec op f lba n
  obtain ⟨hf', hlba', hn'⟩ := @blocks16_spec op f' lba' n'
  rw [h] at hf hlba hn
  exact ⟨hf.symm.trans hf', hlba.symm.trans hlba', hn.symm.trans hn'⟩

/-- The fields of a CDB of sixteen bytes with a group number are read back. -/
theorem group16_spec :
    byte (setGroup (setBlocks16 (startCdb 16 op f) lba n) 14 (arg g)) 1 = f ∧
    scsiGetUint64 (setGroup (setBlocks16 (startCdb 16 op f) lba n) 14 (arg g)) 2 = lba ∧
    scsiGetUint32 (setGroup (setBlocks16 (startCdb 16 op f) lba n) 14 (arg g)) 10 = n ∧
    byte (setGroup (setBlocks16 (startCdb 16 op f) lba n) 14 (arg g)) 14 =
      0 ||| (arg g &&& 0x1f).toUInt8 := by
  obtain ⟨hf, hlba, hn⟩ := @blocks16_spec op f lba n
  refine ⟨?_, ?_, ?_, ?_⟩
  · rw [byte_setGroup (by decide), hf]
  · unfold setGroup
    rw [scsiGetUint64_setByte (by decide), hlba]
  · unfold setGroup
    rw [scsiGetUint32_setByte (by decide), hn]
  · unfold setGroup
    rw [byte_set_eq (by rw [length_setBlocks16, length_startCdb]; decide),
      byte_setBlocks16 (.inr (by decide)), byte_startCdb (by decide)]

theorem group16_inj
    (h : setGroup (setBlocks16 (startCdb 16 op f) lba n) 14 (arg g) =
      setGroup (setBlocks16 (startCdb 16 op f') lba' n') 14 (arg g')) :
    f = f' ∧ lba = lba' ∧ n = n' ∧ g = g' := by
  obtain ⟨hf, hlba, hn, hg⟩ := @group16_spec op f lba n g
  obtain ⟨hf', hlba', hn', hg'⟩ := @group16_spec op f' lba' n' g'
  rw [h] at hf hlba hn hg
  exact ⟨hf.symm.trans hf', hlba.symm.trans hlba', hn.symm.trans hn',
    five_injective (hg.symm.trans hg')⟩

end

theorem writesame16_recovered (x : Args writesame16) : Recovered writesame16 x := by
  obtain ⟨protect, anchor, unmap', lba, group, n, noData⟩ := x
  rintro c ⟨datalen, rfl, rfl⟩ ⟨protect', anchor', unmap'', lba', group', n', noData'⟩
    ⟨datalen', rfl, h⟩
  unfold scsiCdbWritesame16 at h
  simp only at h
  obtain ⟨hflags, hlba, hn, hgroup⟩ := group16_inj h
  have hflags : (protect', anchor', unmap'', datalen' == 0) =
      (protect, anchor, unmap', datalen == 0) := writesameFlags_injective hflags
  simp only [Prod.mk.injEq] at hflags
  obtain ⟨rfl, rfl, rfl, hdata⟩ := hflags
  rw [hlba, hn, hgroup, hdata]

theorem synchronizecache16_recovered (x : Args synchronizecache16) :
    Recovered synchronizecache16 x := by
  obtain ⟨lba, n, syncnv, immed⟩ := x
  rintro c rfl ⟨lba', n', syncnv', immed'⟩ h
  unfold Produces scsiCdbSynchronizecache16 plainTask at h
  simp only at h
  obtain ⟨hflags, hlba, hn⟩ := blocks16_inj h
  have hflags : (syncnv', immed') = (syncnv, immed) := synchronizecacheFlags_injective hflags
  cases hflags
  cases hlba
  cases hn
  rfl

theorem prefetch16_recovered (x : Args prefetch16) : Recovered prefetch16 x := by
  obtain ⟨lba, n, immed, group⟩ := x
  rintro c rfl ⟨lba', n', immed', group'⟩ h
  unfold Produces scsiCdbPrefetch16 plainTask at h
  simp only at h
  obtain ⟨hflag, hlba, hn, hgroup⟩ := group16_inj h
  have himmed : immed' = immed := flag_injective (m := 0x02) (by decide) (congrArg (0 ||| ·) hflag)
  cases himmed
  cases hlba
  cases hn
  cases hgroup
  rfl

theorem getLbaStatus_recovered (x : Args getLbaStatus) : Recovered getLbaStatus x := by
  obtain ⟨lba, n⟩ := x
  rintro c rfl ⟨lba', n'⟩ h
  unfold Produces scsiCdbGetLbaStatus transferTask at h
  simp only at h
  obtain ⟨-, hlba, hn⟩ := blocks16_inj h
  cases hlba
  cases hn
  rfl

end Builder

/-- **Which builders lose no argument**: all but READ DEFECT DATA(12). -/
theorem recovered_iff (b : Builder) (x : b.Args) :
    b.Recovered x ↔ b ≠ .readdefectdata12 := by
  cases b with
  | readdefectdata12 =>
    exact iff_of_false (Builder.readdefectdata12_not_recovered x) fun h => h rfl
  | readdefectdata10 => exact iff_of_true (Builder.readdefectdata10_recovered x) nofun
  | readtoc => exact iff_of_true (Builder.readtoc_recovered x) nofun
  | reportTargetPortGroups =>
    exact iff_of_true (Builder.reportTargetPortGroups_recovered x) nofun
  | reportSupportedOpcodes =>
    exact iff_of_true (Builder.reportSupportedOpcodes_recovered x) nofun
  | inquiry => exact iff_of_true (Builder.inquiry_recovered x) nofun
  | persistentReserveIn => exact iff_of_true (Builder.persistentReserveIn_recovered x) nofun
  | persistentReserveOut => exact iff_of_true (Builder.persistentReserveOut_recovered x) nofun
  | modesense6 => exact iff_of_true (Builder.modesense6_recovered x) nofun
  | modesense10 => exact iff_of_true (Builder.modesense10_recovered x) nofun
  | modeselect6 => exact iff_of_true (Builder.modeselect6_recovered x) nofun
  | modeselect10 => exact iff_of_true (Builder.modeselect10_recovered x) nofun
  | startstopunit => exact iff_of_true (Builder.startstopunit_recovered x) nofun
  | sanitize => exact iff_of_true (Builder.sanitize_recovered x) nofun
  | writesame10 => exact iff_of_true (Builder.writesame10_recovered x) nofun
  | writesame16 => exact iff_of_true (Builder.writesame16_recovered x) nofun
  | unmap => exact iff_of_true (Builder.unmap_recovered x) nofun
  | synchronizecache10 => exact iff_of_true (Builder.synchronizecache10_recovered x) nofun
  | synchronizecache16 => exact iff_of_true (Builder.synchronizecache16_recovered x) nofun
  | prefetch10 => exact iff_of_true (Builder.prefetch10_recovered x) nofun
  | prefetch16 => exact iff_of_true (Builder.prefetch16_recovered x) nofun
  | getLbaStatus => exact iff_of_true (Builder.getLbaStatus_recovered x) nofun

/-- Two READ DEFECT DATA(12) that ask for different lists and have the same CDB. -/
theorem defectLists_lost :
    ¬∀ (b : Builder) (x : b.Args), b.Recovered x := by
  intro h
  exact Builder.readdefectdata12_not_recovered (true, false, 0, 0, 512)
    (h .readdefectdata12 (true, false, 0, 0, 512))

end Libiscsi
