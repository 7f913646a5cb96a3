import Libiscsi.Decode
import Libiscsi.UnmarshallCorrect

/-!
# Lists in VPD pages

The Device Identification page is a list of designators, and the third-party copy page a list of
descriptors, one of which holds the operation codes that are supported, each with its service
actions. Each loop takes the encoding of a list apart again, one element a turn, and returns the
list in reverse order (`vpdPages_decode`).
-/

namespace Libiscsi.Decode

open Bounded Unmarshall Outcome

/-! ## Encodings -/

/-- The values of a designator fit their fields. -/
structure Designator.Fits (g : Designator) : Prop where
  protocolIdentifier : g.protocolIdentifier < 16
  codeSet : g.codeSet < 16
  association : g.association < 4
  designatorType : g.designatorType < 16
  designatorLength : g.designatorLength = g.designator.length
  length_lt : g.designator.length < 256

/-- The bytes of a designator. -/
def Designator.encode (g : Designator) : List UInt8 :=
  UInt8.ofNat (g.protocolIdentifier * 16 + g.codeSet) ::
    UInt8.ofNat ((if g.piv then 128 else 0) + g.association * 16 + g.designatorType) ::
    0 :: UInt8.ofNat g.designatorLength :: g.designator

/-- An operation code fits its field, and so does its number of service actions. -/
structure CommandSupport.Fits (c : CommandSupport) : Prop where
  operationCode : c.operationCode < 256
  serviceActionLength : c.serviceActionLength = c.serviceAction.length
  length_lt : c.serviceAction.length < 256

/-- The bytes of an operation code with its service actions. -/
def CommandSupport.encode (c : CommandSupport) : List UInt8 :=
  UInt8.ofNat c.operationCode :: UInt8.ofNat c.serviceActionLength :: c.serviceAction

/-- A descriptor of the third-party copy page: the supported commands, with the bytes that they are
padded with, or one of another type. -/
inductive CopyDescriptor where
  | supported (commands : List CommandSupport) (padding : List UInt8)
  | other (type : Nat) (body : List UInt8)
  deriving DecidableEq, Repr

namespace CopyDescriptor

/-- `copy_desc_type`. -/
def type : CopyDescriptor → Nat
  | supported _ _ => 1
  | other type _ => type

/-- What follows the length of a descriptor. -/
def body : CopyDescriptor → List UInt8
  | supported commands padding =>
    UInt8.ofNat (commands.flatMap CommandSupport.encode).length ::
      (commands.flatMap CommandSupport.encode ++ padding)
  | other _ body => body

/-- The bytes of a descriptor. -/
def encode (c : CopyDescriptor) : List UInt8 := be16 c.type ++ (be16 c.body.length ++ c.body)

/-- The values of a descriptor fit their fields. -/
structure Fits (c : CopyDescriptor) : Prop where
  type_lt : c.type < 2 ^ 16
  length_lt : c.body.length < 2 ^ 16
  commands : ∀ commands padding, c = supported commands padding →
    (∀ command ∈ commands, command.Fits) ∧ (commands.flatMap CommandSupport.encode).length < 256
  other : ∀ type body, c = other type body → type ≠ 1

/-- The supported commands that are found after a descriptor. -/
def visit (found : Option SupportedCommands) : CopyDescriptor → Option SupportedCommands
  | supported commands _ => some { descriptorType := 1, commandsSupported := commands.reverse }
  | other _ _ => found

/-- The commands of a descriptor. -/
def commands? : CopyDescriptor → Option (List CommandSupport)
  | supported commands _ => some commands
  | other _ _ => none

end CopyDescriptor

/-- A VPD page that was asked for, with the bytes behind its header. -/
structure VpdPage where
  cdb : List UInt8
  qualifier : Nat
  deviceType : Nat
  pagecode : UInt8
  body : List UInt8
  opcode_cdb : cdb.getD 0 0 = 0x12
  evpd_cdb : cdb.getD 1 0 &&& 0x1 ≠ 0
  pagecode_cdb : cdb.getD 2 0 = pagecode
  qualifier_lt : qualifier < 8
  deviceType_lt : deviceType < 32
  length_lt : body.length < 2 ^ 16

namespace VpdPage
variable (p : VpdPage)

/-- The four bytes that all pages start with. -/
def headerBytes : List UInt8 :=
  UInt8.ofNat (p.qualifier * 32 + p.deviceType) :: p.pagecode :: be16 p.body.length

/-- The data of the page. -/
def data : List UInt8 := p.headerBytes ++ p.body

/-- What the header says. -/
def header : InquiryHeader := ⟨p.qualifier, p.deviceType, p.pagecode.toNat⟩

end VpdPage

/-! ## Bits of a byte -/

theorem byte_parts : ∀ b < 256, b >>> 4 &&& 0x0f = b / 16 ∧ b &&& 0x0f = b % 16 ∧
    b >>> 4 &&& 0x03 = b / 16 % 4 ∧ (b &&& 0x80 != 0) = decide (128 ≤ b) ∧
    b >>> 5 &&& 0x07 = b / 32 ∧ b &&& 0x1f = b % 32 := by
  decide +kernel

/-! ## Device identification -/

@[simp] theorem Designator.length_encode (g : Designator) :
    g.encode.length = g.designator.length + 4 := rfl

/-- A designator is read from its bytes. -/
theorem designators_encode {g : Designator} (hg : g.Fits) {pre post : List UInt8} {fuel : Nat}
    {remaining : Int} {devs : List Designator} (hremaining : 0 < remaining) :
    designators (pre ++ (g.encode ++ post)) (fuel + 1) pre.length remaining devs =
      designators (pre ++ (g.encode ++ post)) fuel (pre ++ g.encode).length
        (remaining - g.encode.length) (g :: devs) := by
  have hbyte₀ := byteAt_append_right pre (g.encode ++ post) 0
  have hbyte₁ := byteAt_append_right pre (g.encode ++ post) 1
  have hbyte₃ := byteAt_append_right pre (g.encode ++ post) 3
  have hbytes : bytesAt (pre ++ (g.encode ++ post)) (pre.length + 4) g.designator.length =
      .ok g.designator := by
    rw [bytesAt_append_right, bytesAt_of_le (by simp; omega)]
    simp [Designator.encode]
  have hprotocol := hg.protocolIdentifier
  have hcodeSet := hg.codeSet
  have hassociation := hg.association
  have htype := hg.designatorType
  have hlen := hg.designatorLength
  have hlt := hg.length_lt
  obtain ⟨b₀, hb₀⟩ : ∃ b, b = (UInt8.ofNat (g.protocolIdentifier * 16 + g.codeSet)).toNat :=
    ⟨_, rfl⟩
  obtain ⟨b₁, hb₁⟩ : ∃ b, b = (UInt8.ofNat ((if g.piv then 128 else 0) + g.association * 16 +
    g.designatorType)).toNat := ⟨_, rfl⟩
  have hb₃ : (UInt8.ofNat g.designatorLength).toNat = g.designator.length := by
    rw [UInt8.toNat_ofNat', hlen, Nat.mod_eq_of_lt hlt]
  have hzero : byteAt (pre ++ (g.encode ++ post)) pre.length = .ok b₀ := by
    rw [hb₀]
    exact hbyte₀
  have hone : byteAt (pre ++ (g.encode ++ post)) (pre.length + 1) = .ok b₁ := by
    rw [hb₁]
    exact hbyte₁
  have hthree : byteAt (pre ++ (g.encode ++ post)) (pre.length + 3) = .ok g.designator.length := by
    rw [← hb₃]
    exact hbyte₃
  rw [UInt8.toNat_ofNat', Nat.mod_eq_of_lt (by omega)] at hb₀
  have hpiv : (if g.piv then 128 else 0) = 0 ∨ (if g.piv then 128 else 0) = 128 := by
    cases g.piv with
    | true => exact .inr rfl
    | false => exact .inl rfl
  rw [UInt8.toNat_ofNat', Nat.mod_eq_of_lt (by omega)] at hb₁
  obtain ⟨hshift₀, hlow₀, -⟩ := byte_parts b₀ (by omega)
  obtain ⟨-, hlow₁, hshift₁, hhigh₁, -⟩ := byte_parts b₁ (by omega)
  have hdev : (Designator.mk (b₀ >>> 4 &&& 0x0f) (b₀ &&& 0x0f) (b₁ &&& 0x80 != 0)
      (b₁ >>> 4 &&& 0x03) (b₁ &&& 0x0f) g.designator.length g.designator) = g := by
    have hpivs : decide (128 ≤ b₁) = g.piv := by
      cases hp : g.piv with
      | true =>
        rw [hp, if_pos rfl] at hb₁
        exact decide_eq_true (by omega)
      | false =>
        rw [hp, if_neg (by decide)] at hb₁
        exact decide_eq_false (by omega)
    rw [hshift₀, hlow₀, hhigh₁, hshift₁, hlow₁, hpivs, ← hlen]
    cases g
    simp only at hb₀ hb₁ hpiv hassociation htype hcodeSet hprotocol ⊢
    congr 1 <;> omega
  conv_lhs => unfold designators
  rw [if_neg (by omega), hzero, ok_bind, hone, ok_bind, hthree, ok_bind, hbytes, ok_bind]
  simp only
  rw [hdev, List.length_append, Designator.length_encode]
  congr 1
  push_cast
  omega

/-- The loop over the designators of a page: by induction on those that are left. -/
theorem designators_encodes {post : List UInt8} :
    ∀ {gs devs : List Designator} {pre : List UInt8} {fuel : Nat}, (∀ g ∈ gs, g.Fits) →
      (gs.flatMap Designator.encode).length ≤ fuel →
      designators (pre ++ (gs.flatMap Designator.encode ++ post)) fuel pre.length
        (gs.flatMap Designator.encode).length devs = .ok (gs.reverse ++ devs)
  | [], devs, pre, fuel, _, _ => by
    cases fuel with
    | zero => rfl
    | succ fuel =>
      unfold designators
      exact if_pos le_rfl
  | g :: gs, devs, pre, fuel, hfits, hfuel => by
    have hlen : ((g :: gs).flatMap Designator.encode).length =
        g.designator.length + 4 + (gs.flatMap Designator.encode).length := by
      rw [List.flatMap_cons, List.length_append, Designator.length_encode]
    obtain ⟨fuel, rfl⟩ : ∃ n, fuel = n + 1 := ⟨fuel - 1, by omega⟩
    have hih := @designators_encodes post gs (g :: devs) (pre ++ g.encode) fuel
      (fun g hg => hfits g (List.mem_cons_of_mem _ hg)) (by omega)
    have hdata : pre ++ ((g :: gs).flatMap Designator.encode ++ post) =
        pre ++ (g.encode ++ (gs.flatMap Designator.encode ++ post)) := by
      rw [List.flatMap_cons, List.append_assoc]
    have hremaining : (((g :: gs).flatMap Designator.encode).length : Int) - g.encode.length =
        (gs.flatMap Designator.encode).length := by
      rw [hlen, Designator.length_encode]
      push_cast
      omega
    rw [hdata, designators_encode (hfits g List.mem_cons_self) (by omega), hremaining,
      List.reverse_cons, List.append_assoc]
    rw [List.append_assoc] at hih
    exact hih

/-! ## Third-party copy -/

@[simp] theorem CommandSupport.length_encode (c : CommandSupport) :
    c.encode.length = c.serviceAction.length + 2 := rfl

/-- An operation code is read from its bytes. -/
theorem commandsSupported_encode {c : CommandSupport} (hc : c.Fits) {pre post : List UInt8}
    {fuel : Nat} {remaining : Int} {commands : List CommandSupport} (hremaining : 0 < remaining) :
    commandsSupported (pre ++ (c.encode ++ post)) (fuel + 1) pre.length remaining commands =
      commandsSupported (pre ++ (c.encode ++ post)) fuel (pre ++ c.encode).length
        (remaining - c.encode.length) (c :: commands) := by
  have hoperationCode := hc.operationCode
  have hlen := hc.serviceActionLength
  have hlt := hc.length_lt
  have hbytes : bytesAt (pre ++ (c.encode ++ post)) (pre.length + 2) c.serviceAction.length =
      .ok c.serviceAction := by
    rw [bytesAt_append_right, bytesAt_of_le (by simp; omega)]
    simp [CommandSupport.encode]
  have hzero : byteAt (pre ++ (c.encode ++ post)) pre.length = .ok c.operationCode := by
    have hbyte := byteAt_append_right pre (c.encode ++ post) 0
    have hb : (UInt8.ofNat c.operationCode).toNat = c.operationCode := by
      rw [UInt8.toNat_ofNat', Nat.mod_eq_of_lt (by omega)]
    rw [← hb]
    exact hbyte
  have hone : byteAt (pre ++ (c.encode ++ post)) (pre.length + 1) =
      .ok c.serviceAction.length := by
    have hbyte := byteAt_append_right pre (c.encode ++ post) 1
    have hb : (UInt8.ofNat c.serviceActionLength).toNat = c.serviceAction.length := by
      rw [UInt8.toNat_ofNat', hlen, Nat.mod_eq_of_lt hlt]
    rw [← hb]
    exact hbyte
  have hcommand : CommandSupport.mk c.operationCode c.serviceAction.length c.serviceAction = c := by
    rw [← hlen]
  conv_lhs => unfold commandsSupported
  rw [if_neg (by omega), hzero, ok_bind, hone, ok_bind, hbytes, ok_bind, hcommand,
    List.length_append, CommandSupport.length_encode]
  congr 1

/-- The loop over the operation codes: by induction on those that are left. -/
theorem commandsSupported_encodes {post : List UInt8} :
    ∀ {cs commands : List CommandSupport} {pre : List UInt8} {fuel : Nat}, (∀ c ∈ cs, c.Fits) →
      (cs.flatMap CommandSupport.encode).length ≤ fuel →
      commandsSupported (pre ++ (cs.flatMap CommandSupport.encode ++ post)) fuel pre.length
        (cs.flatMap CommandSupport.encode).length commands = .ok (cs.reverse ++ commands)
  | [], commands, pre, fuel, _, _ => by
    cases fuel with
    | zero => rfl
    | succ fuel =>
      unfold commandsSupported
      exact if_pos le_rfl
  | c :: cs, commands, pre, fuel, hfits, hfuel => by
    have hlen : ((c :: cs).flatMap CommandSupport.encode).length =
        c.serviceAction.length + 2 + (cs.flatMap CommandSupport.encode).length := by
      rw [List.flatMap_cons, List.length_append, CommandSupport.length_encode]
    obtain ⟨fuel, rfl⟩ : ∃ n, fuel = n + 1 := ⟨fuel - 1, by omega⟩
    have hih := @commandsSupported_encodes post cs (c :: commands) (pre ++ c.encode) fuel
      (fun c hc => hfits c (List.mem_cons_of_mem _ hc)) (by omega)
    have hdata : pre ++ ((c :: cs).flatMap CommandSupport.encode ++ post) =
        pre ++ (c.encode ++ (cs.flatMap CommandSupport.encode ++ post)) := by
      rw [List.flatMap_cons, List.append_assoc]
    have hremaining : (((c :: cs).flatMap CommandSupport.encode).length : Int) -
        c.encode.length = (cs.flatMap CommandSupport.encode).length := by
      rw [hlen, CommandSupport.length_encode]
      push_cast
      omega
    rw [hdata, commandsSupported_encode (hfits c List.mem_cons_self) (by omega), hremaining,
      List.reverse_cons, List.append_assoc]
    rw [List.append_assoc] at hih
    exact hih

namespace CopyDescriptor

theorem length_encode (c : CopyDescriptor) : c.encode.length = c.body.length + 4 := by
  rw [encode, List.length_append, List.length_append, length_be16, length_be16]
  omega

/-- The supported commands are read from their descriptor. -/
theorem supportedCommands_encode {commands : List CommandSupport} {padding pre post : List UInt8}
    (hfits : ∀ command ∈ commands, command.Fits)
    (hlt : (commands.flatMap CommandSupport.encode).length < 256) :
    thirdPartyCopyUnmarshallSupportedCommands
        (pre ++ ((supported commands padding).encode ++ post)) pre.length =
      .ok { descriptorType := 1, commandsSupported := commands.reverse } := by
  have htype : bytesAt (pre ++ ((supported commands padding).encode ++ post)) pre.length 2 =
      .ok (be16 1) := by
    unfold encode
    rw [List.append_assoc]
    exact bytesAt_append (m := be16 1)
  have hremaining : byteAt (pre ++ ((supported commands padding).encode ++ post))
      (pre.length + 4) = .ok (commands.flatMap CommandSupport.encode).length := by
    have hbyte := byteAt_append_right pre ((supported commands padding).encode ++ post) 4
    have hb : (UInt8.ofNat (commands.flatMap CommandSupport.encode).length).toNat =
        (commands.flatMap CommandSupport.encode).length := by
      rw [UInt8.toNat_ofNat', Nat.mod_eq_of_lt hlt]
    rw [← hb]
    exact hbyte
  have hdata : pre ++ ((supported commands padding).encode ++ post) =
      (pre ++ (be16 1 ++ (be16 (supported commands padding).body.length ++
        [UInt8.ofNat (commands.flatMap CommandSupport.encode).length]))) ++
          (commands.flatMap CommandSupport.encode ++ (padding ++ post)) := by
    simp [encode, body, CopyDescriptor.type]
  have hloop := @commandsSupported_encodes (padding ++ post) commands []
    (pre ++ (be16 1 ++ (be16 (supported commands padding).body.length ++
      [UInt8.ofNat (commands.flatMap CommandSupport.encode).length]))) _ hfits le_rfl
  rw [← hdata, List.append_nil] at hloop
  have hlen : (pre ++ (be16 1 ++ (be16 (supported commands padding).body.length ++
      [UInt8.ofNat (commands.flatMap CommandSupport.encode).length]))).length =
        pre.length + 5 := by
    simp
  rw [hlen] at hloop
  unfold thirdPartyCopyUnmarshallSupportedCommands
  rw [htype, ok_bind, hremaining, ok_bind, hloop, ok_bind, beNat_be16 (by decide)]

/-- A descriptor is visited. -/
theorem copyDescriptors_encode {c : CopyDescriptor} (hc : c.Fits) {pre post : List UInt8}
    {fuel : Nat} {remaining : Int} {found : Option SupportedCommands}
    (hremaining : 0 < remaining) :
    copyDescriptors (pre ++ (c.encode ++ post)) (fuel + 1) pre.length remaining found =
      copyDescriptors (pre ++ (c.encode ++ post)) fuel (pre ++ c.encode).length
        (remaining - c.encode.length) (visit found c) := by
  have htype : bytesAt (pre ++ (c.encode ++ post)) pre.length 2 = .ok (be16 c.type) := by
    unfold encode
    rw [List.append_assoc]
    exact bytesAt_append (m := be16 c.type)
  have hlength : bytesAt (pre ++ (c.encode ++ post)) (pre.length + 2) 2 =
      .ok (be16 c.body.length) := by
    have hbytes := bytesAt_append (l := pre ++ be16 c.type) (m := be16 c.body.length)
      (n := c.body ++ post)
    rw [List.length_append, length_be16, length_be16] at hbytes
    rw [← hbytes]
    simp [encode]
  have hfound : copyDescriptor (pre ++ (c.encode ++ post)) pre.length (beNat (be16 c.type)) found =
      .ok (visit found c) := by
    rw [beNat_be16 hc.type_lt]
    cases c with
    | supported commands padding =>
      obtain ⟨hcommands, hlt⟩ := hc.commands commands padding rfl
      refine (if_pos rfl).trans ?_
      rw [supportedCommands_encode hcommands hlt]
      rfl
    | other type body => exact if_neg (hc.other type body rfl)
  conv_lhs => unfold copyDescriptors
  rw [if_neg (by omega), htype, ok_bind, hlength, ok_bind, hfound, ok_bind,
    beNat_be16 hc.length_lt, List.length_append, length_encode]
  congr 1

/-- The loop over the descriptors visits all of them, in their order, and each of them once: by
induction on those that are left. -/
theorem copyDescriptors_encodes {post : List UInt8} :
    ∀ {cs : List CopyDescriptor} {found : Option SupportedCommands} {pre : List UInt8}
      {fuel : Nat}, (∀ c ∈ cs, c.Fits) → (cs.flatMap encode).length ≤ fuel →
      copyDescriptors (pre ++ (cs.flatMap encode ++ post)) fuel pre.length
        (cs.flatMap encode).length found = .ok (cs.foldl visit found)
  | [], found, pre, fuel, _, _ => by
    cases fuel with
    | zero => rfl
    | succ fuel =>
      unfold copyDescriptors
      exact if_pos le_rfl
  | c :: cs, found, pre, fuel, hfits, hfuel => by
    have hlen : ((c :: cs).flatMap encode).length =
        c.body.length + 4 + (cs.flatMap encode).length := by
      rw [List.flatMap_cons, List.length_append, length_encode]
    obtain ⟨fuel, rfl⟩ : ∃ n, fuel = n + 1 := ⟨fuel - 1, by omega⟩
    have hih := @copyDescriptors_encodes post cs (visit found c) (pre ++ c.encode) fuel
      (fun c hc => hfits c (List.mem_cons_of_mem _ hc)) (by omega)
    have hdata : pre ++ ((c :: cs).flatMap encode ++ post) =
        pre ++ (c.encode ++ (cs.flatMap encode ++ post)) := by
      rw [List.flatMap_cons, List.append_assoc]
    have hremaining : (((c :: cs).flatMap encode).length : Int) - c.encode.length =
        (cs.flatMap encode).length := by
      rw [hlen, length_encode]
      push_cast
      omega
    rw [hdata, copyDescriptors_encode (hfits c List.mem_cons_self) (by omega), hremaining,
      List.foldl_cons]
    rw [List.append_assoc] at hih
    exact hih

/-- With one descriptor of supported commands, these are found. -/
theorem foldl_visit {commands : List CommandSupport} :
    ∀ {cs : List CopyDescriptor} {found : Option SupportedCommands},
      cs.filterMap commands? = [commands] → cs.foldl visit found =
        some { descriptorType := 1, commandsSupported := commands.reverse }
  | [], _, h => by cases h
  | other _ _ :: cs, found, h => by
    rw [List.foldl_cons]
    exact foldl_visit h
  | supported commands' padding :: cs, found, h => by
    obtain ⟨rfl, hnone⟩ := List.cons.inj (h : commands' :: cs.filterMap commands? = [commands])
    have hrest : ∀ {cs : List CopyDescriptor} {found : Option SupportedCommands},
        cs.filterMap commands? = [] → cs.foldl visit found = found := by
      intro cs
      induction cs with
      | nil => intro found _; rfl
      | cons c cs ih =>
        intro found hnil
        cases c with
        | supported _ _ => cases hnil
        | other type body => exact ih hnil
    rw [List.foldl_cons, hrest hnone]
    rfl

end CopyDescriptor

/-! ## The pages -/

namespace VpdPage
variable (p : VpdPage)

/-- The header of a page is read. -/
theorem header_eq : inquiryHeader p.data = p.header := by
  have hqualifier := p.qualifier_lt
  have hdeviceType := p.deviceType_lt
  obtain ⟨b, hb⟩ : ∃ b, b = (UInt8.ofNat (p.qualifier * 32 + p.deviceType)).toNat := ⟨_, rfl⟩
  have hfirst : taskGetUint p.data 1 0 = b := hb ▸ uint_one rfl
  have hcode : taskGetUint p.data 1 1 = p.pagecode.toNat := uint_one rfl
  rw [UInt8.toNat_ofNat', Nat.mod_eq_of_lt (by omega)] at hb
  obtain ⟨-, -, -, -, hshift, hlow⟩ := byte_parts b (by omega)
  unfold inquiryHeader header
  rw [hfirst, hcode, hshift, hlow]
  congr 1 <;> omega

/-- The length of a page is read. -/
theorem length_eq : taskGetUint p.data 2 2 = p.body.length := by
  have hread := uint_append_right
    [UInt8.ofNat (p.qualifier * 32 + p.deviceType), p.pagecode] (be16 p.body.length ++ p.body) 2 0
  rw [uint_be16 p.length_lt] at hread
  exact hread

/-- An INQUIRY for a VPD page. -/
theorem datain_eq :
    scsiDatainUnmarshall p.cdb p.data = scsiInquiryDatainUnmarshall p.cdb p.data := by
  have hlen : p.data.length ≠ 0 := by simp [data, headerBytes]
  unfold scsiDatainUnmarshall
  simp only
  rw [if_neg hlen, if_pos p.opcode_cdb]

end VpdPage

/-- A Device Identification page of designators. -/
structure DesignatorPage extends VpdPage where
  designators : List Designator
  fits : ∀ g ∈ designators, g.Fits
  pagecode_eq : pagecode = 0x83
  body_eq : body = designators.flatMap Designator.encode

/-- The designators are decoded. -/
def DesignatorPage.Decoded (p : DesignatorPage) : Prop :=
  scsiDatainUnmarshall p.cdb p.data = .ok (some (.deviceIdentification
    { header := p.header, designators := p.designators.reverse }))

/-- A third-party copy page of descriptors, one of which holds the commands. -/
structure CopyPage extends VpdPage where
  descriptors : List CopyDescriptor
  commands : List CommandSupport
  fits : ∀ c ∈ descriptors, c.Fits
  one : descriptors.filterMap CopyDescriptor.commands? = [commands]
  pagecode_eq : pagecode = 0x8f
  body_eq : body = descriptors.flatMap CopyDescriptor.encode

/-- The commands are decoded, and all descriptors are visited once, in their order. -/
def CopyPage.Decoded (p : CopyPage) : Prop :=
  scsiDatainUnmarshall p.cdb p.data = .ok (some (.thirdPartyCopy
    { header := p.header
      supportedCommands := some { descriptorType := 1, commandsSupported := p.commands.reverse } }))
  ∧ copyDescriptors p.data p.body.length 4 p.body.length none =
    .ok (p.descriptors.foldl CopyDescriptor.visit none)

theorem designatorPage_decoded (p : DesignatorPage) : p.Decoded := by
  have hlen : p.headerBytes.length = 4 := rfl
  have hloop := @designators_encodes [] p.designators [] p.headerBytes _ p.fits le_rfl
  rw [List.append_nil, List.append_nil, ← p.body_eq, hlen] at hloop
  have hrun : scsiInquiryUnmarshallDeviceIdentification p.data = .ok (some
      { header := p.header, designators := p.designators.reverse }) := by
    unfold scsiInquiryUnmarshallDeviceIdentification
    simp only
    rw [p.length_eq, p.header_eq]
    change (Decode.designators (p.headerBytes ++ p.body) p.body.length 4 p.body.length [] >>= _) = _
    rw [hloop]
    rfl
  unfold DesignatorPage.Decoded
  rw [p.datain_eq]
  unfold scsiInquiryDatainUnmarshall
  simp only [p.pagecode_cdb, p.pagecode_eq]
  rw [if_neg p.evpd_cdb, if_neg (by decide), if_neg (by decide), if_pos trivial, hrun]
  rfl

theorem copyPage_decoded (p : CopyPage) : p.Decoded := by
  have hlen : p.headerBytes.length = 4 := rfl
  have hloop := @CopyDescriptor.copyDescriptors_encodes [] p.descriptors none p.headerBytes _ p.fits
    le_rfl
  rw [List.append_nil, ← p.body_eq, hlen] at hloop
  have hrun : scsiInquiryUnmarshallThirdPartyCopy p.data = .ok (some
      { header := p.header
        supportedCommands := some
          { descriptorType := 1, commandsSupported := p.commands.reverse } }) := by
    unfold scsiInquiryUnmarshallThirdPartyCopy
    simp only
    rw [p.length_eq, p.header_eq]
    change (copyDescriptors (p.headerBytes ++ p.body) p.body.length 4 p.body.length none >>= _) = _
    rw [hloop, CopyDescriptor.foldl_visit p.one]
    rfl
  refine ⟨?_, hloop⟩
  rw [p.datain_eq]
  unfold scsiInquiryDatainUnmarshall
  simp only [p.pagecode_cdb, p.pagecode_eq]
  rw [if_neg p.evpd_cdb, if_neg (by decide), if_neg (by decide), if_neg (by decide),
    if_pos trivial, hrun]
  rfl

/-- **The lists in VPD pages** are decoded from their encodings. -/
theorem vpdPages_decode : (∀ p : DesignatorPage, p.Decoded) ∧ ∀ p : CopyPage, p.Decoded :=
  ⟨designatorPage_decoded, copyPage_decoded⟩

end Libiscsi.Decode
