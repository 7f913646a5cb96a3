import Libiscsi.Lib.Reading
import Libiscsi.Unmarshall

/-!
# What the data of a command says

The functions of `Unmarshall` once more, with the structures that they return. The allocations
succeed unless their size is one that `malloc` refuses, and the bytes that are allocated are zero.
A list that the source builds by adding to its front is the list in that order. A structure that is
nothing but fields is the fields as `Unmarshall` sets them, the last one first.
-/

namespace Libiscsi.Decode

open Bounded Unmarshall

/-! ## Allocating -/

/-- `scsi_malloc`; `k` fills in what was allocated, of which it gets the size. -/
def scsiMalloc {α : Type} (n : Int) (k : Nat → Except Bounded.Fault (Option α)) :
    Except Bounded.Fault (Option α) :=
  let total := ((8 + n) % 2 ^ 64).toNat
  if ptrdiffMax < total then .ok none
  else do
    within total 0 8
    k (total - 8)

section
variable {α : Type} {n : Int} {k : Nat → Except Bounded.Fault (Option α)}

/-- An object of a size that `malloc` accepts. -/
theorem scsiMalloc_of_nonneg (hn : 0 ≤ n) (hle : n < 2 ^ 62) : scsiMalloc n k = k n.toNat := by
  have htotal : ((8 + n) % 2 ^ 64).toNat = n.toNat + 8 := by omega
  unfold scsiMalloc
  simp only [htotal]
  rw [if_neg (by unfold ptrdiffMax; omega), within_of_le (by omega), Outcome.ok_bind,
    Nat.add_sub_cancel]

/-- A size that is negative is too large for `malloc`. -/
theorem scsiMalloc_null (hn : n < -8) (hle : -2 ^ 62 ≤ n) : scsiMalloc n k = .ok none := by
  unfold scsiMalloc
  exact if_pos (by unfold ptrdiffMax; omega)

/-- A size that leaves no room for what `scsi_malloc` writes. -/
theorem scsiMalloc_small (hn : -8 ≤ n) (hlt : n < 0) :
    scsiMalloc n k = .error .writeOutside := by
  have htotal : ((8 + n) % 2 ^ 64).toNat = (8 + n).toNat := by omega
  unfold scsiMalloc
  simp only [htotal]
  rw [if_neg (by unfold ptrdiffMax; omega), within, if_neg (by omega)]
  rfl

end

/-- The fields of a structure that is nothing but fields. -/
def settings (m : Parser Bool) : Except Bounded.Fault (Option (List Setting)) :=
  (m {}).map fun (r, s) => if r then some s.fields else none

/-! ## The structures -/

/-- `struct scsi_reportluns_list`, in an object of `allocated` bytes. -/
structure ReportlunsList where
  allocated : Nat
  num : Nat
  luns : List Nat
  deriving DecidableEq, Repr

/-- `struct scsi_readtoc_desc`, the member of the union that is filled in. -/
inductive ReadtocDesc where
  | none
  | toc (adr control track lba : Nat)
  | ses (adr control firstInLast lba : Nat)
  | full (session adr control tno point min sec frame zeroByte pmin psec pframe : Nat)
  deriving DecidableEq, Repr

/-- `struct scsi_readtoc_list`. -/
structure ReadtocList where
  num : Nat
  first : Nat
  last : Nat
  desc : List ReadtocDesc
  deriving DecidableEq, Repr

/-- `struct scsi_lba_status_descriptor`. -/
structure LbaStatusDescriptor where
  lba : Nat
  numBlocks : Nat
  provisioning : Nat
  deriving DecidableEq, Repr

/-- `struct scsi_get_lba_status`, with its descriptors in an object of `allocated` bytes. -/
structure GetLbaStatus where
  allocated : Nat
  numDescriptors : Nat
  descriptors : List LbaStatusDescriptor
  deriving DecidableEq, Repr

/-- `struct scsi_persistent_reserve_in_read_keys`, in an object of `allocated` bytes. -/
structure ReadKeys where
  allocated : Nat
  prgeneration : Nat
  additionalLength : Nat
  numKeys : Nat
  keys : List Nat
  deriving DecidableEq, Repr

/-- `struct scsi_op_timeout_descriptor`. -/
structure OpTimeoutDescriptor where
  descriptorLength : Nat := 0
  commandSpecific : Nat := 0
  nominalProcessingTimeout : Nat := 0
  recommendedTimeout : Nat := 0
  deriving DecidableEq, Repr

/-- `struct scsi_command_descriptor`; `timeouts` is its member `to`. -/
structure CommandDescriptor where
  opcode : Nat
  sa : Nat
  ctdp : Bool
  servactv : Bool
  cdbLen : Nat
  timeouts : OpTimeoutDescriptor := {}
  deriving DecidableEq, Repr

/-- `struct scsi_report_supported_op_codes`, in an object of `allocated` bytes. -/
structure SupportedOpCodes where
  allocated : Nat
  numDescriptors : Nat
  descriptors : List CommandDescriptor
  deriving DecidableEq, Repr

/-- `struct scsi_report_supported_op_codes_one_command`: its fields, and `cdb_usage_data`. -/
structure OneCommand where
  fields : List Setting
  cdbUsageData : List UInt8
  deriving DecidableEq, Repr

/-- `struct scsi_target_port_group`. `portsAt` is where `ports` points to in the object, and
`ports` what was written there. -/
structure TargetPortGroup where
  byte0 : Nat
  flags : Nat
  portGroup : Nat
  statusCode : Nat
  portCount : Nat
  retrievedPortCount : Nat
  portsAt : Nat
  ports : List Nat
  deriving DecidableEq, Repr

/-- `struct scsi_report_target_port_groups`, in an object of `allocated` bytes. -/
structure TargetPortGroups where
  allocated : Nat
  numGroups : Nat
  groups : List TargetPortGroup
  deriving DecidableEq, Repr

/-- `struct scsi_inquiry_standard`. -/
structure InquiryStandard where
  fields : List Setting
  vendorIdentification : List UInt8
  productIdentification : List UInt8
  productRevisionLevel : List UInt8
  deriving DecidableEq, Repr

/-- `struct scsi_inquiry_supported_pages`, and `struct scsi_inquiry_unit_serial_number`. -/
structure InquiryText where
  fields : List Setting
  text : List UInt8
  deriving DecidableEq, Repr

/-- `struct scsi_inquiry_device_designator`. -/
structure Designator where
  protocolIdentifier : Nat
  codeSet : Nat
  piv : Bool
  association : Nat
  designatorType : Nat
  designatorLength : Nat
  designator : List UInt8
  deriving DecidableEq, Repr

/-- The members that all pages start with. -/
structure InquiryHeader where
  qualifier : Nat
  deviceType : Nat
  pagecode : Nat
  deriving DecidableEq, Repr

/-- `struct scsi_inquiry_device_identification`. -/
structure DeviceIdentification where
  header : InquiryHeader
  designators : List Designator
  deriving DecidableEq, Repr

/-- `struct third_party_copy_command_support`. -/
structure CommandSupport where
  operationCode : Nat
  serviceActionLength : Nat
  serviceAction : List UInt8
  deriving DecidableEq, Repr

/-- `struct third_party_copy_supported_commands`. -/
structure SupportedCommands where
  descriptorType : Nat
  commandsSupported : List CommandSupport
  deriving DecidableEq, Repr

/-- `struct scsi_inquiry_third_party_copy`. -/
structure ThirdPartyCopy where
  header : InquiryHeader
  supportedCommands : Option SupportedCommands
  deriving DecidableEq, Repr

/-- `struct scsi_mode_page`: `fields` are the members of the union that are filled in. -/
structure ModePage where
  ps : Nat
  spf : Nat
  pageCode : Nat
  subpageCode : Nat
  len : Nat
  fields : List (String × Nat)
  deriving DecidableEq, Repr

/-- `struct scsi_mode_sense`. -/
structure ModeSense where
  modeDataLength : Nat
  mediumType : Nat
  deviceSpecificParameter : Nat
  longlba : Nat := 0
  blockDescriptorLength : Nat
  pages : List ModePage
  deriving DecidableEq, Repr

section
variable (cdb d : List UInt8)

/-! ## REPORT LUNS and READ TOC -/

/-- `scsi_reportluns_datain_unmarshall`. -/
def scsiReportlunsDatainUnmarshall : Except Bounded.Fault (Option ReportlunsList) :=
  if d.length < 4 then .ok none
  else
    let listSize := toInt ((taskGetUint d 4 0 + 8) % 2 ^ 32)
    let listSize := if listSize > d.length then (d.length : Int) else listSize
    let numLuns := listSize.tdiv 8 - 1
    scsiMalloc (4 + 2 * numLuns) fun list => do
      within list 0 4
      let luns ← (List.range numLuns.toNat).mapM fun i => do
        within list (4 + 2 * i) 2
        number d 2 (i * 8 + 8)
      .ok (some { allocated := list, num := (numLuns % 2 ^ 32).toNat, luns })

/-- `scsi_readtoc_desc_unmarshall`. -/
def scsiReadtocDescUnmarshall (format : UInt8) (i : Nat) : Except Bounded.Fault ReadtocDesc :=
  if format = 0 then do
    let adr ← number d 1 (4 + 8 * i + 1)
    let control ← number d 1 (4 + 8 * i + 1)
    let track ← number d 1 (4 + 8 * i + 2)
    let lba ← number d 4 (4 + 8 * i + 4)
    .ok (.toc (adr &&& 0xf0) (control &&& 0x0f) track lba)
  else if format = 1 then do
    let adr ← number d 1 (4 + 8 * i + 1)
    let control ← number d 1 (4 + 8 * i + 1)
    let firstInLast ← number d 1 (4 + 8 * i + 2)
    let lba ← number d 4 (4 + 8 * i + 4)
    .ok (.ses (adr &&& 0xf0) (control &&& 0x0f) firstInLast lba)
  else if format = 2 then do
    let session ← number d 1 (4 + 11 * i + 0)
    let adr ← number d 1 (4 + 11 * i + 1)
    let control ← number d 1 (4 + 11 * i + 1)
    let tno ← number d 1 (4 + 11 * i + 2)
    let point ← number d 1 (4 + 11 * i + 3)
    let min ← number d 1 (4 + 11 * i + 4)
    let sec ← number d 1 (4 + 11 * i + 5)
    let frame ← number d 1 (4 + 11 * i + 6)
    let zeroByte ← number d 1 (4 + 11 * i + 7)
    let pmin ← number d 1 (4 + 11 * i + 8)
    let psec ← number d 1 (4 + 11 * i + 9)
    let pframe ← number d 1 (4 + 11 * i + 10)
    .ok (.full (session &&& 0xf0) (adr &&& 0xf0) (control &&& 0x0f) tno point min sec frame
      zeroByte pmin psec pframe)
  else .ok .none

/-- `scsi_readtoc_datain_unmarshall`. -/
def scsiReadtocDatainUnmarshall : Except Bounded.Fault (Option ReadtocList) :=
  if d.length < 4 then .ok none
  else
    let dataLen : Int := ((taskGetUint d 2 0 + 2) % 2 ^ 16 : Nat) - 2
    if d.length < dataLen then .ok none
    else
      let numDesc := (dataLen - 4).tdiv 8
      scsiMalloc (12 + 48 * numDesc) fun list => do
        within list 0 12
        let desc ← (List.range numDesc.toNat).mapM fun i => do
          within list (12 + 48 * i) 48
          scsiReadtocDescUnmarshall d (cdb.getD 2 0 &&& 0xf) i
        .ok (some { num := (numDesc % 2 ^ 32).toNat, first := taskGetUint d 1 2,
                    last := taskGetUint d 1 3, desc })

/-! ## SERVICE ACTION IN and PERSISTENT RESERVE IN -/

/-- The turn `i` of the loop over the descriptors of GET LBA STATUS. -/
def lbaStatusDescriptor (i : Nat) : Except Bounded.Fault LbaStatusDescriptor := do
  let high ← number d 4 (8 + i * 16 + 0)
  let low ← number d 4 (8 + i * 16 + 4)
  let numBlocks ← number d 4 (8 + i * 16 + 8)
  let provisioning ← number d 1 (8 + i * 16 + 12)
  .ok { lba := high * 2 ^ 32 + low, numBlocks, provisioning := provisioning &&& 0x0f }

/-- The part of `scsi_serviceactionin_datain_unmarshall` for GET LBA STATUS. -/
def getLbaStatus : Except Bounded.Fault (Option GetLbaStatus) :=
  let len := toInt (taskGetUint d 4 0)
  let len := if len > (d.length : Int) - 4 then (d.length : Int) - 4 else len
  let len := len.tdiv 16
  scsiMalloc (16 * len) fun room => do
    let descriptors ← (List.range len.toNat).mapM fun i => do
      within room (16 * i) 16
      lbaStatusDescriptor d i
    .ok (some { allocated := room, numDescriptors := (len % 2 ^ 32).toNat, descriptors })

/-- The part of `scsi_persistentreservein_datain_unmarshall` for READ KEYS. -/
def readKeys : Except Bounded.Fault (Option ReadKeys) :=
  if d.length < 8 then .ok none
  else
    let cdbKeysLen := taskGetUint d 4 4
    let keysLen := min cdbKeysLen (d.length - 8)
    let numKeys := keysLen / 8
    scsiMalloc (16 + keysLen) fun rk => do
      within rk 0 12
      let keys ← (List.range numKeys).mapM fun i => do
        within rk (16 + 8 * i) 8
        number d 8 (8 + i * 8)
      .ok (some { allocated := rk, prgeneration := taskGetUint d 4 0,
                  additionalLength := cdbKeysLen, numKeys, keys })

/-! ## MAINTENANCE IN -/

/-- The timeouts descriptor at `i`. -/
def opTimeoutDescriptor (i : Nat) : Except Bounded.Fault OpTimeoutDescriptor := do
  let descriptorLength ← number d 2 i
  let commandSpecific ← number d 1 (i + 3)
  let nominalProcessingTimeout ← number d 4 (i + 4)
  let recommendedTimeout ← number d 4 (i + 8)
  .ok { descriptorLength, commandSpecific, nominalProcessingTimeout, recommendedTimeout }

/-- The loop over the descriptors of REPORT SUPPORTED OPERATION CODES, the next of which is the
`n`-th. Each turn takes at least eight bytes off `len`. -/
def commandDescriptors (rsoc : Nat) :
    Nat → Nat → Nat → Int → Except Bounded.Fault (List CommandDescriptor)
  | 0, _, _, _ => .ok []
  | fuel + 1, n, i, len =>
    if len < 8 then .ok []
    else do
      within rsoc (4 + 20 * n) 20
      let opcode ← number d 1 i
      let sa ← number d 2 (i + 2)
      let flags ← number d 1 (i + 5)
      let cdbLen ← number d 2 (i + 6)
      let next ← offset (i + 8)
      let desc : CommandDescriptor :=
        { opcode, sa, ctdp := flags &&& 0x02 != 0, servactv := flags &&& 0x01 != 0, cdbLen }
      if !desc.ctdp then
        let rest ← commandDescriptors rsoc fuel (n + 1) next (len - 8)
        .ok (desc :: rest)
      else
        let timeouts ← opTimeoutDescriptor d next
        let next' ← offset (next + (timeouts.descriptorLength + 2))
        let rest ← commandDescriptors rsoc fuel (n + 1) next'
          (len - 8 - (timeouts.descriptorLength + 2 : Nat))
        .ok ({ desc with timeouts } :: rest)

/-- The part of `scsi_maintenancein_datain_unmarshall` for all operation codes. -/
def reportAllOpcodes : Except Bounded.Fault (Option SupportedOpCodes) :=
  if d.length < 4 then .ok none
  else
    let len := toInt (taskGetUint d 4 0)
    scsiMalloc (4 + len.tdiv 8 * 20) fun rsoc => do
      within rsoc 0 4
      let descriptors ← commandDescriptors d rsoc len.toNat 0 4 len
      .ok (some { allocated := rsoc, numDescriptors := descriptors.length, descriptors })

/-- The part of `scsi_maintenancein_datain_unmarshall` for one operation code. -/
def reportOneOpcode : Except Bounded.Fault (Option OneCommand) := do
  let fields ← settings (Unmarshall.reportOneOpcode d)
  let cdbLength := taskGetUint d 2 2 % 256
  let cdbUsageData ← if cdbLength ≤ 16 then bytesAt d 4 cdbLength else .ok []
  .ok (fields.map fun fields => { fields, cdbUsageData })

/-- What the second pass of `scsi_report_target_port_groups_unmarshal` writes. `rtpg` is the object,
with the offset of the ports of a group, and missing in the first pass. -/
def filledIn (rtpg : Option (Nat × Nat)) (off : Nat → Nat) (len : Nat) :
    Except Bounded.Fault Unit :=
  match rtpg with
  | none => .ok ()
  | some (size, ports) => within size (off ports) len

/-- The ports of a group in `scsi_report_target_port_groups_unmarshal`: the loop over `k`, of which
`left` turns are left. -/
def groupPorts (rtpg : Option (Nat × Nat)) (i : Nat) : Nat → Nat → Except Bounded.Fault (List Nat)
  | 0, _ => .ok []
  | left + 1, k => do
    let next ← offset (i + (k + 1) * 4)
    if next ≤ d.length then
      let port ← number d 2 (i + k * 4 + 2)
      filledIn rtpg (fun ports => ports + 2 * k) 2
      let rest ← groupPorts rtpg i left (k + 1)
      .ok (port :: rest)
    else .ok []

/-- The loop over the groups in `scsi_report_target_port_groups_unmarshal`, from position `i` on;
the next group is the `n`-th. Each turn goes on by at least eight bytes. -/
def portGroups (rtpg : Option (Nat × Nat)) :
    Nat → Nat → Nat → Except Bounded.Fault (List TargetPortGroup)
  | 0, _, _ => .ok []
  | fuel + 1, n, i =>
    if d.length < i + 8 then .ok []
    else do
      filledIn rtpg (fun _ => 8 + 16 * n) 16
      let ports ← groupPorts d rtpg (i + 8) (taskGetUint d 1 (i + 7)) 0
      let group : TargetPortGroup :=
        { byte0 := taskGetUint d 1 i, flags := taskGetUint d 1 (i + 1)
          portGroup := taskGetUint d 2 (i + 2), statusCode := taskGetUint d 1 (i + 5)
          portCount := taskGetUint d 1 (i + 7), retrievedPortCount := ports.length
          portsAt := (rtpg.map Prod.snd).getD 0, ports }
      let rest ← portGroups (rtpg.map fun r => (r.1, r.2 + 2 * ports.length))
        fuel (n + 1) (i + 8 + ports.length * 4)
      .ok (group :: rest)

/-- `scsi_report_target_port_groups_unmarshal`. -/
def scsiReportTargetPortGroupsUnmarshal : Except Bounded.Fault (Option TargetPortGroups) :=
  if d.length < 4 then .ok none
  else do
    let counted ← portGroups d none d.length 0 4
    let groupCount := counted.length
    let portCount := (counted.map TargetPortGroup.retrievedPortCount).sum
    scsiMalloc (8 + 16 * groupCount + 2 * portCount : Nat) fun rtpg => do
      within rtpg 0 4
      let groups ← portGroups d (some (rtpg, 8 + 16 * groupCount)) d.length 0 4
      .ok (some { allocated := rtpg, numGroups := groupCount, groups })

/-! ## INQUIRY -/

/-- `scsi_inquiry_unmarshall_standard`. -/
def scsiInquiryUnmarshallStandard : Except Bounded.Fault (Option InquiryStandard) := do
  let fields ← settings (Unmarshall.scsiInquiryUnmarshallStandard d)
  let vendorIdentification ← bytesAt d 8 8
  let productIdentification ← bytesAt d 16 16
  let productRevisionLevel ← bytesAt d 32 4
  .ok (fields.map fun fields =>
    { fields, vendorIdentification, productIdentification, productRevisionLevel })

/-- A page with text of which byte 3 is the length. -/
def inquiryText (m : Parser Bool) : Except Bounded.Fault (Option InquiryText) := do
  let fields ← settings m
  let text ← bytesAt d 4 (taskGetUint d 1 3)
  .ok (fields.map fun fields => { fields, text })

/-- The members that all pages start with. -/
def inquiryHeader : InquiryHeader where
  qualifier := (taskGetUint d 1 0 >>> 5) &&& 0x07
  deviceType := taskGetUint d 1 0 &&& 0x1f
  pagecode := taskGetUint d 1 1

/-- The loop of `scsi_inquiry_unmarshall_device_identification`, from position `dptr` on. Each turn
takes at least four bytes off `remaining`. -/
def designators : Nat → Nat → Int → List Designator → Except Bounded.Fault (List Designator)
  | 0, _, _, devs => .ok devs
  | fuel + 1, dptr, remaining, devs =>
    if remaining ≤ 0 then .ok devs
    else do
      let b₀ ← byteAt d dptr
      let b₁ ← byteAt d (dptr + 1)
      let designatorLength ← byteAt d (dptr + 3)
      let designator ← bytesAt d (dptr + 4) designatorLength
      let dev : Designator :=
        { protocolIdentifier := (b₀ >>> 4) &&& 0x0f, codeSet := b₀ &&& 0x0f
          piv := b₁ &&& 0x80 != 0, association := (b₁ >>> 4) &&& 0x03
          designatorType := b₁ &&& 0x0f, designatorLength, designator }
      designators fuel (dptr + (designatorLength + 4)) (remaining - 4 - designatorLength)
        (dev :: devs)

/-- `scsi_inquiry_unmarshall_device_identification`. -/
def scsiInquiryUnmarshallDeviceIdentification :
    Except Bounded.Fault (Option DeviceIdentification) := do
  let remaining := taskGetUint d 2 2
  let devs ← designators d remaining 4 remaining []
  .ok (some { header := inquiryHeader d, designators := devs })

/-- The loop of `third_party_copy_unmarshall_supported_commands`, from position `lptr` on. Each turn
takes at least two bytes off `remaining`. -/
def commandsSupported :
    Nat → Nat → Int → List CommandSupport → Except Bounded.Fault (List CommandSupport)
  | 0, _, _, commands => .ok commands
  | fuel + 1, lptr, remaining, commands =>
    if remaining ≤ 0 then .ok commands
    else do
      let operationCode ← byteAt d lptr
      let serviceActionLength ← byteAt d (lptr + 1)
      let serviceAction ← bytesAt d (lptr + 2) serviceActionLength
      commandsSupported fuel (lptr + (serviceActionLength + 2))
        (remaining - (serviceActionLength + 2))
        ({ operationCode, serviceActionLength, serviceAction } :: commands)

/-- `third_party_copy_unmarshall_supported_commands`. -/
def thirdPartyCopyUnmarshallSupportedCommands (dptr : Nat) :
    Except Bounded.Fault SupportedCommands := do
  let descriptorType ← bytesAt d dptr 2
  let remaining ← byteAt d (dptr + 4)
  let commands ← commandsSupported d remaining (dptr + 5) remaining []
  .ok { descriptorType := beNat descriptorType, commandsSupported := commands }

/-- The `switch` in the loop of `scsi_inquiry_unmarshall_third_party_copy`. -/
def copyDescriptor (dptr copyDescType : Nat) (supported : Option SupportedCommands) :
    Except Bounded.Fault (Option SupportedCommands) :=
  if copyDescType = 1 then (thirdPartyCopyUnmarshallSupportedCommands d dptr).map some
  else .ok supported

/-- The loop of `scsi_inquiry_unmarshall_third_party_copy`, from position `dptr` on. Each turn takes
at least four bytes off `remaining`. -/
def copyDescriptors :
    Nat → Nat → Int → Option SupportedCommands → Except Bounded.Fault (Option SupportedCommands)
  | 0, _, _, supported => .ok supported
  | fuel + 1, dptr, remaining, supported =>
    if remaining ≤ 0 then .ok supported
    else do
      let copyDescType ← bytesAt d dptr 2
      let copyDescLen ← bytesAt d (dptr + 2) 2
      let supported ← copyDescriptor d dptr (beNat copyDescType) supported
      copyDescriptors fuel (dptr + (beNat copyDescLen + 4)) (remaining - (beNat copyDescLen + 4))
        supported

/-- `scsi_inquiry_unmarshall_third_party_copy`. -/
def scsiInquiryUnmarshallThirdPartyCopy : Except Bounded.Fault (Option ThirdPartyCopy) := do
  let remaining := taskGetUint d 2 2
  let supportedCommands ← copyDescriptors d remaining 4 remaining none
  .ok (some { header := inquiryHeader d, supportedCommands })

/-! ## MODE SENSE -/

/-- The header of the page at `pos`, of which `b` is the first byte: the subpage code, the length of
the page, and where the page begins. -/
def modePageHeader (b pos : Nat) : Except Bounded.Fault (Nat × Nat × Nat) :=
  if b &&& 0x40 = 0 then do
    let len ← number d 1 (pos + 1)
    let body ← offset (pos + 2)
    .ok (0, len, body)
  else do
    let subpageCode ← number d 1 (pos + 1)
    let len ← number d 2 (pos + 2)
    let body ← offset (pos + 4)
    .ok (subpageCode, len, body)

/-- The loop of `scsi_modesense_datain_unmarshall`, from position `pos` on. Each turn goes on by at
least two bytes. -/
def modePages : Nat → Nat → List ModePage → Except Bounded.Fault (List ModePage)
  | 0, _, pages => .ok pages
  | fuel + 1, pos, pages =>
    if d.length ≤ pos then .ok pages
    else do
      let b ← number d 1 pos
      let (subpageCode, len, body) ← modePageHeader d b pos
      let fields ← fieldsAt d body (modePageFields (b &&& 0x3f))
      let next ← offset (body + len)
      modePages fuel next
        ({ ps := b &&& 0x80, spf := b &&& 0x40, pageCode := b &&& 0x3f, subpageCode, len,
           fields } :: pages)

/-- `scsi_modesense_datain_unmarshall`. `block_descriptor_length` has eight bits. -/
def scsiModesenseDatainUnmarshall (isModesense6 : Bool) : Except Bounded.Fault (Option ModeSense) :=
  let hdrLen := if isModesense6 then 4 else 8
  if d.length < hdrLen then .ok none
  else
    let ms : ModeSense := if isModesense6 then
      { modeDataLength := taskGetUint d 1 0, mediumType := taskGetUint d 1 1
        deviceSpecificParameter := taskGetUint d 1 2
        blockDescriptorLength := taskGetUint d 1 3, pages := [] }
    else
      { modeDataLength := taskGetUint d 2 0, mediumType := taskGetUint d 1 2
        deviceSpecificParameter := taskGetUint d 1 3, longlba := taskGetUint d 1 4 &&& 0x01
        blockDescriptorLength := taskGetUint d 2 6 % 256, pages := [] }
    if d.length < ms.modeDataLength + 1 then .ok none
    else do
      let pages ← modePages d d.length (hdrLen + ms.blockDescriptorLength) []
      .ok (some { ms with pages })

/-! ## The dispatch -/

/-- What `scsi_datain_unmarshall` returns. -/
inductive Datain where
  | fields (fields : List Setting)
  | reportluns (list : ReportlunsList)
  | readtoc (list : ReadtocList)
  | getLbaStatus (gls : GetLbaStatus)
  | readKeys (rk : ReadKeys)
  | supportedOpCodes (rsoc : SupportedOpCodes)
  | oneCommand (rsoc : OneCommand)
  | targetPortGroups (rtpg : TargetPortGroups)
  | inquiryStandard (inq : InquiryStandard)
  | inquiryText (inq : InquiryText)
  | deviceIdentification (inq : DeviceIdentification)
  | thirdPartyCopy (inq : ThirdPartyCopy)
  | modeSense (ms : ModeSense)
  deriving DecidableEq, Repr

/-- `scsi_inquiry_datain_unmarshall`. -/
def scsiInquiryDatainUnmarshall : Except Bounded.Fault (Option Datain) :=
  let pageCode := cdb.getD 2 0
  if cdb.getD 1 0 &&& 0x1 = 0 then
    (scsiInquiryUnmarshallStandard d).map (·.map .inquiryStandard)
  else if pageCode = 0x00 then
    (inquiryText d (scsiInquiryUnmarshallSupportedPages d)).map (·.map .inquiryText)
  else if pageCode = 0x80 then
    (inquiryText d (scsiInquiryUnmarshallUnitSerialNumber d)).map (·.map .inquiryText)
  else if pageCode = 0x83 then
    (scsiInquiryUnmarshallDeviceIdentification d).map (·.map .deviceIdentification)
  else if pageCode = 0x8f then
    (scsiInquiryUnmarshallThirdPartyCopy d).map (·.map .thirdPartyCopy)
  else (settings (Unmarshall.scsiInquiryDatainUnmarshall cdb d)).map (·.map .fields)

/-- `scsi_serviceactionin_datain_unmarshall`. -/
def scsiServiceactioninDatainUnmarshall : Except Bounded.Fault (Option Datain) :=
  if cdb.getD 1 0 = 0x12 then (getLbaStatus d).map (·.map .getLbaStatus)
  else (settings (Unmarshall.scsiServiceactioninDatainUnmarshall cdb d)).map (·.map .fields)

/-- `scsi_persistentreservein_datain_unmarshall`. -/
def scsiPersistentreserveinDatainUnmarshall : Except Bounded.Fault (Option Datain) :=
  if cdb.getD 1 0 &&& 0x1f = 0 then (readKeys d).map (·.map .readKeys)
  else (settings (Unmarshall.scsiPersistentreserveinDatainUnmarshall cdb d)).map (·.map .fields)

/-- `scsi_maintenancein_datain_unmarshall`. -/
def scsiMaintenanceinDatainUnmarshall : Except Bounded.Fault (Option Datain) :=
  if cdb.getD 1 0 = 0x0c then
    let options := cdb.getD 2 0 &&& 0x07
    if options = 0 then (reportAllOpcodes d).map (·.map .supportedOpCodes)
    else if options = 1 ∨ options = 2 then (reportOneOpcode d).map (·.map .oneCommand)
    else .ok none
  else if cdb.getD 1 0 = 0x0a then
    (scsiReportTargetPortGroupsUnmarshal d).map (·.map .targetPortGroups)
  else .ok none

/-- `scsi_datain_unmarshall`. -/
def scsiDatainUnmarshall : Except Bounded.Fault (Option Datain) :=
  let opcode := cdb.getD 0 0
  if d.length = 0 then .ok none
  else if opcode = 0x12 then scsiInquiryDatainUnmarshall cdb d
  else if opcode = 0x1a then (scsiModesenseDatainUnmarshall d true).map (·.map .modeSense)
  else if opcode = 0x5a then (scsiModesenseDatainUnmarshall d false).map (·.map .modeSense)
  else if opcode = 0x43 then (scsiReadtocDatainUnmarshall cdb d).map (·.map .readtoc)
  else if opcode = 0xa0 then (scsiReportlunsDatainUnmarshall d).map (·.map .reportluns)
  else if opcode = 0x9e then scsiServiceactioninDatainUnmarshall cdb d
  else if opcode = 0x5e then scsiPersistentreserveinDatainUnmarshall cdb d
  else if opcode = 0xa3 then scsiMaintenanceinDatainUnmarshall cdb d
  else (settings (Unmarshall.scsiDatainUnmarshall cdb d)).map (·.map .fields)

end

end Libiscsi.Decode
