import Libiscsi.Lib.Bounded

/-!
# Reading the data of a command

`scsi_datain_unmarshall` (`lib/scsi-lowlevel.c`) and the functions it calls. The CDB is the list of
its sixteen bytes, and the data the list of its bytes. A structure that is allocated with its own
size has room for its members; one that is followed by an array is a number of bytes, of which the
offsets are those of a 64-bit machine. The value of a field is kept only to tell whether it is zero.
-/

namespace Libiscsi.Unmarshall

open Bounded

/-! ## Fields -/

/-- A field that is the whole number. -/
def field (name : String) (width off : Nat) : Field where
  name
  off
  width
  part v := v
  part_zero := rfl

/-- `(task_get_uint8(task, off) >> shift) & mask`. -/
def bits (name : String) (off shift mask : Nat) : Field where
  name
  off
  width := 1
  part v := (v >>> shift) &&& mask
  part_zero := by simp

/-- `!!(task_get_uint8(task, off) & mask)`. -/
def flag (name : String) (off mask : Nat) : Field where
  name
  off
  width := 1
  part v := if v &&& mask = 0 then 0 else 1
  part_zero := by simp

/-- `task_get_uint8(task, off) & mask`. -/
def masked (name : String) (off mask : Nat) : Field where
  name
  off
  width := 1
  part v := v &&& mask
  part_zero := by simp

/-- A field that is part of the number of `width` bytes. -/
def maskedNumber (name : String) (width off mask : Nat) : Field where
  name
  off
  width
  part v := v &&& mask
  part_zero := by simp

section
variable (cdb d : List UInt8)

/-- `task_get_uint8`, `task_get_uint16` and `task_get_uint32` at an offset that is a constant. -/
def taskGetUint (width off : Nat) : Nat := uint d width off

/-- An `int` that an `uint32_t` is converted to. -/
def toInt (v : Nat) : Int := if v < 2 ^ 31 then v else v - 2 ^ 32

/-! ## Allocating -/

/-- The largest size that `malloc` allocates. -/
def ptrdiffMax : Nat := 2 ^ 63 - 1

/-- `scsi_malloc`: the sizes are of type `size_t`, and a pointer to the next object is put before
the `n` bytes. `k` goes on with the size of what was allocated. -/
def scsiMalloc (n : Int) (k : Nat → Parser Bool) : Parser Bool :=
  let total := ((8 + n) % 2 ^ 64).toNat
  if ptrdiffMax < total then pure false
  else creating (store total 0 8 >>= fun _ => k (total - 8))

/-! ## REPORT LUNS -/

/-- `scsi_reportluns_datain_unmarshall`. -/
def scsiReportlunsDatainUnmarshall : Parser Bool :=
  if d.length < 4 then pure false
  else
    let listSize := toInt ((taskGetUint d 4 0 + 8) % 2 ^ 32)
    let listSize := if listSize > d.length then (d.length : Int) else listSize
    let numLuns := listSize.tdiv 8 - 1
    scsiMalloc (4 + 2 * numLuns) fun list =>
      store list 0 4 >>= fun _ =>
      loop (fun i => store list (4 + 2 * i) 2 >>= fun _ =>
        setFields d (i * 8 + 8) [field "luns" 2 0]) numLuns.toNat >>= fun _ =>
      pure true

/-! ## READ TOC -/

/-- The fields that `scsi_readtoc_desc_unmarshall` reads, and the bytes from one descriptor to
the next. -/
def readtocDesc (format : UInt8) : List Field × Nat :=
  if format = 0 then
    ([masked "adr" 1 0xf0, masked "control" 1 0x0f, field "track" 1 2, field "lba" 4 4], 8)
  else if format = 1 then
    ([masked "adr" 1 0xf0, masked "control" 1 0x0f, field "first_in_last" 1 2,
      field "lba" 4 4], 8)
  else if format = 2 then
    ([masked "session" 0 0xf0, masked "adr" 1 0xf0, masked "control" 1 0x0f, field "tno" 1 2,
      field "point" 1 3, field "min" 1 4, field "sec" 1 5, field "frame" 1 6, field "zero" 1 7,
      field "pmin" 1 8, field "psec" 1 9, field "pframe" 1 10], 11)
  else ([], 0)

/-- `scsi_readtoc_datain_unmarshall`. -/
def scsiReadtocDatainUnmarshall : Parser Bool :=
  if d.length < 4 then pure false
  else
    let dataLen : Int := ((taskGetUint d 2 0 + 2) % 2 ^ 16 : Nat) - 2
    if d.length < dataLen then pure false
    else
      let numDesc := (dataLen - 4).tdiv 8
      let (fields, size) := readtocDesc (cdb.getD 2 0 &&& 0xf)
      scsiMalloc (12 + 48 * numDesc) fun list =>
        store list 0 12 >>= fun _ =>
        setFields d 0 [field "first" 1 2, field "last" 1 3] >>= fun _ =>
        loop (fun i => store list (12 + 48 * i) 48 >>= fun _ =>
          setFields d (4 + size * i) fields) numDesc.toNat >>= fun _ =>
        pure true

/-! ## SERVICE ACTION IN -/

/-- A field of eight bytes that is read as two numbers of four. -/
def twoNumbers (off : Nat) : Setting :=
  ⟨off, 8, taskGetUint d 4 off * 2 ^ 32 + taskGetUint d 4 (off + 4)⟩

/-- The part of `scsi_serviceactionin_datain_unmarshall` for READ CAPACITY(16). -/
def readcapacity16 : Parser Bool :=
  creating (set (twoNumbers d 0) >>= fun _ =>
    setFields d 0 [field "block_length" 4 8, bits "p_type" 12 1 0x07, masked "prot_en" 12 0x01,
      bits "p_i_exp" 13 4 0x0f, masked "lbppbe" 13 0x0f, flag "lbpme" 14 0x80,
      flag "lbprz" 14 0x40, maskedNumber "lalba" 2 14 0x3fff] >>= fun _ => pure true)

/-- The part of `scsi_serviceactionin_datain_unmarshall` for GET LBA STATUS. -/
def getLbaStatus : Parser Bool :=
  creating (
    let len := toInt (taskGetUint d 4 0)
    let len := if len > (d.length : Int) - 4 then (d.length : Int) - 4 else len
    let len := len.tdiv 16
    scsiMalloc (16 * len) fun descriptors =>
      loop (fun i => store descriptors (16 * i) 16 >>= fun _ =>
        set (twoNumbers d (8 + i * 16)) >>= fun _ =>
        setFields d (8 + i * 16) [field "num_blocks" 4 8, masked "provisioning" 12 0x0f])
        len.toNat >>= fun _ =>
      pure true)

/-- `scsi_serviceactionin_datain_unmarshall`. -/
def scsiServiceactioninDatainUnmarshall : Parser Bool :=
  if cdb.getD 1 0 = 0x10 then readcapacity16 d
  else if cdb.getD 1 0 = 0x12 then getLbaStatus d
  else pure false

/-! ## RECEIVE COPY RESULTS -/

/-- `scsi_receivecopyresults_datain_unmarshall`. -/
def scsiReceivecopyresultsDatainUnmarshall : Parser Bool :=
  let sa := cdb.getD 1 0 &&& 0x1f
  let len := toInt (taskGetUint d 4 0)
  if sa = 0 then
    if len < 8 then pure false
    else creating (
      setFields d 0 [field "available_data" 4 0, masked "copy_manager_status" 4 0x7f,
        bits "hdd" 4 7 0x01, field "segments_processed" 2 5, field "transfer_count_units" 1 7,
        field "transfer_count" 4 8] >>= fun _ => pure true)
  else if sa = 3 then
    if len < 40 then pure false
    else
      let implDescListLength := taskGetUint d 1 43
      scsiMalloc (36 + implDescListLength) fun op =>
        store op 0 36 >>= fun _ =>
        setFields d 0 [field "available_data" 4 0, field "max_target_desc_count" 2 8,
          field "max_segment_desc_count" 2 10, field "max_desc_list_length" 4 12,
          field "max_segment_length" 4 16, field "max_inline_data_length" 4 20,
          field "held_data_limit" 4 24, field "max_stream_device_transfer_size" 4 28,
          field "total_concurrent_copies" 2 34, field "max_concurrent_copies" 1 36,
          field "data_segment_granularity" 1 37, field "inline_data_granularity" 1 38,
          field "held_data_granularity" 1 39, field "impl_desc_list_length" 1 43] >>= fun _ =>
        loop (fun i => store op (35 + i) 1 >>= fun _ =>
          setFields d (44 + i) [field "imp_desc_type_codes" 1 0]) implDescListLength >>= fun _ =>
        pure true
  else pure false

/-! ## PERSISTENT RESERVE IN -/

/-- `scsi_persistentreservein_datain_unmarshall`. -/
def scsiPersistentreserveinDatainUnmarshall : Parser Bool :=
  let sa := cdb.getD 1 0 &&& 0x1f
  if sa = 0 then
    if d.length < 8 then pure false
    else
      let keysLen := min (taskGetUint d 4 4) (d.length - 8)
      let numKeys := keysLen / 8
      scsiMalloc (16 + keysLen) fun rk =>
        store rk 0 12 >>= fun _ =>
        setFields d 0 [field "prgeneration" 4 0, field "additional_length" 4 4] >>= fun _ =>
        loop (fun i => store rk (16 + 8 * i) 8 >>= fun _ =>
          setFields d (8 + i * 8) [field "keys" 8 0]) numKeys >>= fun _ =>
        pure true
  else if sa = 1 then
    creating (setFields d 0 [field "prgeneration" 4 0] >>= fun _ =>
      (if toInt (taskGetUint d 4 4) > 0 then
        setFields d 0 [field "reservation_key" 8 8, bits "pr_scope" 21 4 0x0f,
          masked "pr_type" 21 0x0f]
      else pure ()) >>= fun _ => pure true)
  else if sa = 2 then
    creating (setFields d 0 [field "length" 2 0, flag "crh" 2 0x10, flag "sip_c" 2 0x08,
      flag "atp_c" 2 0x04, flag "ptpl_c" 2 0x01, flag "tmv" 3 0x80, bits "allow_commands" 3 4 0x07,
      field "persistent_reservation_type_mask" 2 4] >>= fun _ => pure true)
  else pure false

/-! ## MAINTENANCE IN -/

/-- The ports of a group in `scsi_report_target_port_groups_unmarshal`: the loop over `k`, of which
`left` turns are left. `port` is the number of ports before it, and `rtpg`, in the second pass, the
object that is filled in, with the offset of its ports. -/
def groupPorts (rtpg : Option (Nat × Nat)) (i port : Nat) : Nat → Nat → Parser Nat
  | 0, k => pure k
  | left + 1, k => int (i + (k + 1) * 4) >>= fun next =>
      if next ≤ d.length then
        (match rtpg with
        | none => pure ()
        | some (size, ports) => store size (ports + 2 * (port + k)) 2 >>= fun _ =>
            setFields d (i + k * 4) [field "ports" 2 2]) >>= fun _ =>
        groupPorts rtpg i port left (k + 1)
      else pure k

/-- The loop over the groups in `scsi_report_target_port_groups_unmarshal`, from position `i` on:
the numbers of groups and ports. Each turn goes on by at least eight bytes. -/
def portGroups (rtpg : Option (Nat × Nat)) : Nat → Nat → Nat → Nat → Parser (Nat × Nat)
  | 0, _, group, port => pure (group, port)
  | fuel + 1, i, group, port =>
    if d.length < i + 8 then pure (group, port)
    else
      (match rtpg with
      | none => pure ()
      | some (size, _) => store size (8 + 16 * group) 16 >>= fun _ =>
          setFields d i [field "port_count" 1 7, field "byte0" 1 0, field "flags" 1 1,
            field "port_group" 2 2, field "status_code" 1 5]) >>= fun _ =>
      groupPorts d rtpg (i + 8) port (taskGetUint d 1 (i + 7)) 0 >>= fun k =>
      portGroups rtpg fuel (i + 8 + k * 4) (group + 1) (port + k)

/-- `scsi_report_target_port_groups_unmarshal`. -/
def scsiReportTargetPortGroupsUnmarshal : Parser Bool :=
  if d.length < 4 then pure false
  else
    portGroups d none d.length 4 0 0 >>= fun count =>
    scsiMalloc (8 + 16 * count.1 + 2 * count.2 : Nat) fun rtpg =>
      store rtpg 0 4 >>= fun _ =>
      portGroups d (some (rtpg, 8 + 16 * count.1)) d.length 4 0 0 >>= fun _ =>
      pure true

/-- The loop over the descriptors of REPORT SUPPORTED OPERATION CODES, the next of which is the
`n`-th. Each turn takes at least eight bytes off `len`. -/
def commandDescriptors (rsoc : Nat) : Nat → Nat → Nat → Nat → Parser Unit
  | 0, _, _, _ => pure ()
  | fuel + 1, n, i, len =>
    if len < 8 then pure ()
    else
      store rsoc (4 + 20 * n) 20 >>= fun _ =>
      setFields d i [field "opcode" 1 0, field "sa" 2 2, flag "ctdp" 5 0x02,
        flag "servactv" 5 0x01, field "cdb_len" 2 6] >>= fun _ =>
      int (i + 8) >>= fun next =>
      if taskGetUint d 1 (i + 5) &&& 0x02 = 0 then
        commandDescriptors rsoc fuel (n + 1) next (len - 8)
      else
        setFields d next [field "descriptor_length" 2 0, field "command_specific" 1 3,
          field "nominal_processing_timeout" 4 4, field "recommended_timeout" 4 8] >>= fun _ =>
        int (next + (taskGetUint d 2 next + 2)) >>= fun next' =>
        commandDescriptors rsoc fuel (n + 1) next' (len - 8 - (taskGetUint d 2 next + 2))

/-- The part of `scsi_maintenancein_datain_unmarshall` for all operation codes. -/
def reportAllOpcodes : Parser Bool :=
  if d.length < 4 then pure false
  else
    let len := toInt (taskGetUint d 4 0)
    scsiMalloc (4 + len.tdiv 8 * 20) fun rsoc =>
      store rsoc 0 4 >>= fun _ =>
      commandDescriptors d rsoc len.toNat 0 4 len.toNat >>= fun _ =>
      pure true

/-- The part of `scsi_maintenancein_datain_unmarshall` for one operation code. `cdb_length` has
eight bits. -/
def reportOneOpcode : Parser Bool :=
  creating (
    let cdbLength := taskGetUint d 2 2 % 256
    setFields d 0 [flag "ctdp" 1 0x80, masked "support" 1 0x07,
      maskedNumber "cdb_length" 2 2 0xff] >>= fun _ =>
    (if cdbLength ≤ 16 then copy d 4 cdbLength else pure ()) >>= fun _ =>
    (if taskGetUint d 1 1 &&& 0x80 = 0 then pure ()
    else setFields d (4 + cdbLength) [field "descriptor_length" 2 0, field "command_specific" 1 3,
      field "nominal_processing_timeout" 4 4, field "recommended_timeout" 4 8]) >>= fun _ =>
    pure true)

/-- `scsi_maintenancein_datain_unmarshall`. -/
def scsiMaintenanceinDatainUnmarshall : Parser Bool :=
  if cdb.getD 1 0 = 0x0c then
    let options := cdb.getD 2 0 &&& 0x07
    if options = 0 then reportAllOpcodes d
    else if options = 1 ∨ options = 2 then reportOneOpcode d
    else pure false
  else if cdb.getD 1 0 = 0x0a then scsiReportTargetPortGroupsUnmarshal d
  else pure false

/-! ## READ CAPACITY(10) -/

/-- `scsi_readcapacity10_datain_unmarshall`. -/
def scsiReadcapacity10DatainUnmarshall : Parser Bool :=
  if d.length < 8 then pure false
  else creating (setFields d 0 [field "lba" 4 0, field "block_size" 4 4] >>= fun _ => pure true)

/-! ## INQUIRY -/

/-- The fields that all pages start with. -/
def inquiryHeader : List Field :=
  [bits "qualifier" 0 5 0x07, masked "device_type" 0 0x1f, field "pagecode" 1 1]

/-- `scsi_inquiry_unmarshall_standard`. -/
def scsiInquiryUnmarshallStandard : Parser Bool :=
  creating (
    setFields d 0 [bits "qualifier" 0 5 0x07, masked "device_type" 0 0x1f, flag "rmb" 1 0x80,
      field "version" 1 2, flag "normaca" 3 0x20, flag "hisup" 3 0x10,
      masked "response_data_format" 3 0x0f, field "additional_length" 1 4, flag "sccs" 5 0x80,
      flag "acc" 5 0x40, bits "tpgs" 5 4 0x03, flag "threepc" 5 0x08, flag "protect" 5 0x01,
      flag "encserv" 6 0x40, flag "multip" 6 0x10, flag "addr16" 6 0x01, flag "wbus16" 7 0x20,
      flag "sync" 7 0x10, flag "cmdque" 7 0x02] >>= fun _ =>
    copy d 8 8 >>= fun _ =>
    copy d 16 16 >>= fun _ =>
    copy d 32 4 >>= fun _ =>
    setFields d 0 [bits "clocking" 56 2 0x03, flag "qas" 56 0x02, flag "ius" 56 0x01] >>= fun _ =>
    loop (fun i => setFields d (58 + i * 2) [field "version_descriptor" 2 0]) 8 >>= fun _ =>
    pure true)

/-- `scsi_inquiry_unmarshall_supported_pages`. -/
def scsiInquiryUnmarshallSupportedPages : Parser Bool :=
  creating (setFields d 0 inquiryHeader >>= fun _ =>
    setFields d 0 [field "num_pages" 1 3] >>= fun _ =>
    let numPages := taskGetUint d 1 3
    scsiMalloc numPages fun pages =>
      store pages 0 numPages >>= fun _ =>
      copy d 4 numPages >>= fun _ =>
      pure true)

/-- `scsi_inquiry_unmarshall_unit_serial_number`. -/
def scsiInquiryUnmarshallUnitSerialNumber : Parser Bool :=
  creating (setFields d 0 inquiryHeader >>= fun _ =>
    let len := taskGetUint d 1 3
    scsiMalloc (len + 1) fun usn =>
      store usn 0 (len + 1) >>= fun _ =>
      copy d 4 len >>= fun _ =>
      pure true)

/-- The loop of `scsi_inquiry_unmarshall_device_identification`, from position `dptr` on. Each turn
takes at least four bytes off `remaining`. -/
def designators : Nat → Nat → Nat → Parser Bool
  | 0, _, _ => pure true
  | fuel + 1, dptr, remaining =>
    if remaining = 0 then pure true
    else creating (
      load d dptr >>= fun _ =>
      load d (dptr + 1) >>= fun _ =>
      load d (dptr + 3) >>= fun designatorLength =>
      scsiMalloc (designatorLength + 1) fun designator =>
        store designator 0 (designatorLength + 1) >>= fun _ =>
        copy d (dptr + 4) designatorLength >>= fun _ =>
        designators fuel (dptr + (designatorLength + 4)) (remaining - (designatorLength + 4)))

/-- `scsi_inquiry_unmarshall_device_identification`. -/
def scsiInquiryUnmarshallDeviceIdentification : Parser Bool :=
  creating (setFields d 0 inquiryHeader >>= fun _ =>
    designators d (taskGetUint d 2 2) 4 (taskGetUint d 2 2))

/-- The loop of `third_party_copy_unmarshall_supported_commands`, from position `lptr` on; `k` is
what comes after it. Each turn takes at least two bytes off `remaining`. -/
def commandsSupported (k : Parser Bool) : Nat → Nat → Nat → Parser Bool
  | 0, _, _ => k
  | fuel + 1, lptr, remaining =>
    if remaining = 0 then k
    else creating (
      load d lptr >>= fun _ =>
      load d (lptr + 1) >>= fun serviceActionLength =>
      scsiMalloc (serviceActionLength + 1) fun serviceAction =>
        store serviceAction 0 (serviceActionLength + 1) >>= fun _ =>
        copy d (lptr + 2) serviceActionLength >>= fun _ =>
        commandsSupported k fuel (lptr + (serviceActionLength + 2))
          (remaining - (serviceActionLength + 2)))

/-- The loop of `scsi_inquiry_unmarshall_third_party_copy`, from position `dptr` on. Each turn takes
at least four bytes off `remaining`. -/
def copyDescriptors : Nat → Nat → Nat → Parser Bool
  | 0, _, _ => pure true
  | fuel + 1, dptr, remaining =>
    if remaining = 0 then pure true
    else
      copy d dptr 4 >>= fun _ =>
      let copyDescLen := taskGetUint d 2 (dptr + 2)
      let next := copyDescriptors fuel (dptr + (copyDescLen + 4)) (remaining - (copyDescLen + 4))
      if taskGetUint d 2 dptr = 1 then
        creating (load d (dptr + 4) >>= fun length =>
          commandsSupported d next length (dptr + 5) length)
      else next

/-- `scsi_inquiry_unmarshall_third_party_copy`. -/
def scsiInquiryUnmarshallThirdPartyCopy : Parser Bool :=
  creating (setFields d 0 inquiryHeader >>= fun _ =>
    copyDescriptors d (taskGetUint d 2 2) 4 (taskGetUint d 2 2))

/-- `scsi_inquiry_unmarshall_block_limits`. -/
def scsiInquiryUnmarshallBlockLimits : Parser Bool :=
  creating (setFields d 0 inquiryHeader >>= fun _ =>
    setFields d 0 [masked "wsnz" 4 0x01, field "max_cmp" 1 5, field "opt_gran" 2 6,
      field "max_xfer_len" 4 8, field "opt_xfer_len" 4 12, field "max_prefetch" 4 16,
      field "max_unmap" 4 20, field "max_unmap_bdc" 4 24, field "opt_unmap_gran" 4 28,
      flag "ugavalid" 32 0x80, maskedNumber "unmap_gran_align" 4 32 0x7fffffff] >>= fun _ =>
    set (twoNumbers d 36) >>= fun _ =>
    setFields d 0 [field "max_atomic_xfer_len" 4 44, field "atomic_align" 4 48,
      field "atomic_gran" 4 52, field "max_atomic_tl_with_atomic_boundary" 4 56,
      field "max_atomic_boundary_size" 4 60] >>= fun _ =>
    pure true)

/-- `scsi_inquiry_unmarshall_block_device_characteristics`. -/
def scsiInquiryUnmarshallBlockDeviceCharacteristics : Parser Bool :=
  creating (setFields d 0 inquiryHeader >>= fun _ =>
    setFields d 0 [field "medium_rotation_rate" 2 4, field "product_type" 1 6,
      bits "wabereq" 7 6 0x03, bits "wacereq" 7 4 0x03, masked "nominal_form_factor" 7 0x0f,
      flag "fuab" 8 0x02, flag "vbuls" 8 0x01] >>= fun _ =>
    pure true)

/-- `scsi_inquiry_unmarshall_logical_block_provisioning`. -/
def scsiInquiryUnmarshallLogicalBlockProvisioning : Parser Bool :=
  creating (setFields d 0 inquiryHeader >>= fun _ =>
    setFields d 0 [field "threshold_exponent" 1 4, flag "lbpu" 5 0x80, flag "lbpws" 5 0x40,
      flag "lbpws10" 5 0x20, flag "lbprz" 5 0x04, flag "anc_sup" 5 0x02, flag "dp" 5 0x01,
      masked "provisioning_type" 6 0x07] >>= fun _ =>
    pure true)

/-- `scsi_inquiry_datain_unmarshall`. -/
def scsiInquiryDatainUnmarshall : Parser Bool :=
  let pageCode := cdb.getD 2 0
  if cdb.getD 1 0 &&& 0x1 = 0 then scsiInquiryUnmarshallStandard d
  else if pageCode = 0x00 then scsiInquiryUnmarshallSupportedPages d
  else if pageCode = 0x80 then scsiInquiryUnmarshallUnitSerialNumber d
  else if pageCode = 0x83 then scsiInquiryUnmarshallDeviceIdentification d
  else if pageCode = 0x8f then scsiInquiryUnmarshallThirdPartyCopy d
  else if pageCode = 0xb0 then scsiInquiryUnmarshallBlockLimits d
  else if pageCode = 0xb1 then scsiInquiryUnmarshallBlockDeviceCharacteristics d
  else if pageCode = 0xb2 then scsiInquiryUnmarshallLogicalBlockProvisioning d
  else pure false

/-! ## MODE SENSE -/

/-- The fields of a mode page, at offsets from the byte behind its length. -/
def modePageFields (pageCode : Nat) : List Field :=
  if pageCode = 0x08 then
    [flag "ic" 0 0x80, flag "abpf" 0 0x40, flag "cap" 0 0x20, flag "disc" 0 0x10,
      flag "size" 0 0x08, flag "wce" 0 0x04, flag "mf" 0 0x02, flag "rcd" 0 0x01,
      bits "demand_read_retention_priority" 1 4 0x0f, masked "write_retention_priority" 1 0x0f,
      field "disable_prefetch_transfer_length" 2 2, field "minimum_prefetch" 2 4,
      field "maximum_prefetch" 2 6, field "maximum_prefetch_ceiling" 2 8, flag "fsw" 10 0x80,
      flag "lbcss" 10 0x40, flag "dra" 10 0x20, flag "nv_dis" 10 0x01,
      field "number_of_cache_segments" 1 11, field "cache_segment_size" 2 12]
  else if pageCode = 0x0a then
    [bits "tst" 0 5 0x07, flag "tmf_only" 0 0x10, flag "dpicz" 0 0x08, flag "d_sense" 0 0x04,
      flag "gltsd" 0 0x02, flag "rlec" 0 0x01, bits "queue_algorithm_modifier" 1 4 0x0f,
      masked "nuar" 1 0x08, bits "qerr" 1 1 0x03, flag "vs" 2 0x80, flag "rac" 2 0x40,
      bits "ua_intlck_ctrl" 2 4 0x0f, flag "swp" 2 0x08, flag "ato" 3 0x80, flag "tas" 3 0x40,
      flag "atmpe" 3 0x20, flag "rwwp" 3 0x10, flag "autoload_mode" 3 0x07,
      field "busy_timeout_period" 2 6, field "extended_selftest_completion_time" 2 8]
  else if pageCode = 0x02 then
    [field "buffer_full_ratio" 1 0, field "buffer_empty_ratio" 1 1,
      field "bus_inactivity_limit" 2 2, field "disconnect_time_limit" 2 4,
      field "connect_time_limit" 2 6, field "maximum_burst_size" 2 8, flag "emdp" 10 0x80,
      bits "fair_arbitration" 10 4 0x0f, flag "dimm" 10 0x08, masked "dtdc" 10 0x07,
      field "first_burst_size" 2 12]
  else if pageCode = 0x1c then
    [flag "perf" 0 0x80, flag "ebf" 0 0x20, flag "ewasc" 0 0x10, flag "dexcpt" 0 0x08,
      flag "test" 0 0x04, flag "ebackerr" 0 0x02, flag "logerr" 0 0x01, masked "mrie" 1 0x0f,
      field "interval_timer" 4 2, field "report_count" 4 6]
  else if pageCode = 0x1a then
    [bits "pm_bg_precedence" 0 6 0x03, flag "standby_y" 0 0x01, flag "idle_c" 1 0x08,
      flag "idle_b" 1 0x04, flag "idle_a" 1 0x02, flag "standby_z" 1 0x01,
      field "idle_a_condition_timer" 4 2, field "standby_z_condition_timer" 4 6,
      field "idle_b_condition_timer" 4 10, field "idle_c_condition_timer" 4 14,
      field "standby_y_condition_timer" 4 18, bits "ccf_idle" 37 6 0x03,
      bits "ccf_standby" 37 4 0x03, bits "ccf_stopped" 37 2 0x03]
  else []

/-- The header of the page at `pos`: its fields, their number of bytes, and the length of what
follows. -/
def modePageHeader (pos : Nat) : List Field × Nat × Nat :=
  if taskGetUint d 1 pos &&& 0x40 = 0 then ([field "len" 1 1], 2, taskGetUint d 1 (pos + 1))
  else ([field "subpage_code" 1 1, field "len" 2 2], 4, taskGetUint d 2 (pos + 2))

/-- The loop of `scsi_modesense_datain_unmarshall`, from position `pos` on. Each turn goes on by at
least two bytes. -/
def modePages : Nat → Nat → Parser Bool
  | 0, _ => pure true
  | fuel + 1, pos =>
    if d.length ≤ pos then pure true
    else alloc >>= fun ok =>
      -- a page that cannot be allocated ends the loop, and what was read is returned
      if ok then
        let (fields, size, len) := modePageHeader d pos
        setFields d pos ([masked "ps" 0 0x80, masked "spf" 0 0x40, masked "page_code" 0 0x3f] ++
          fields) >>= fun _ =>
        int (pos + size) >>= fun body =>
        setFields d body (modePageFields (taskGetUint d 1 pos &&& 0x3f)) >>= fun _ =>
        int (body + len) >>= fun next =>
        modePages fuel next
      else pure true

/-- `scsi_modesense_datain_unmarshall`. `block_descriptor_length` has eight bits. -/
def scsiModesenseDatain (isModesense6 : Bool) : Parser Bool :=
  let hdrLen := if isModesense6 then 4 else 8
  if d.length < hdrLen then pure false
  else creating (
    setFields d 0 (if isModesense6 then
      [field "mode_data_length" 1 0, field "medium_type" 1 1,
        field "device_specific_parameter" 1 2, field "block_descriptor_length" 1 3]
    else
      [field "mode_data_length" 2 0, field "medium_type" 1 2,
        field "device_specific_parameter" 1 3, masked "longlba" 4 0x01,
        maskedNumber "block_descriptor_length" 2 6 0xff]) >>= fun _ =>
    if d.length < taskGetUint d (if isModesense6 then 1 else 2) 0 + 1 then pure false
    else modePages d d.length
      (hdrLen + if isModesense6 then taskGetUint d 1 3 else taskGetUint d 2 6 % 256))

/-! ## The dispatch -/

/-- `scsi_datain_unmarshall`. -/
def scsiDatainUnmarshall : Parser Bool :=
  let opcode := cdb.getD 0 0
  if d.length = 0 then pure false
  else if opcode = 0x12 then scsiInquiryDatainUnmarshall cdb d
  else if opcode = 0x1a then scsiModesenseDatain d true
  else if opcode = 0x5a then scsiModesenseDatain d false
  else if opcode = 0x25 then scsiReadcapacity10DatainUnmarshall d
  else if opcode = 0x43 then scsiReadtocDatainUnmarshall cdb d
  else if opcode = 0xa0 then scsiReportlunsDatainUnmarshall d
  else if opcode = 0x9e then scsiServiceactioninDatainUnmarshall cdb d
  else if opcode = 0x5e then scsiPersistentreserveinDatainUnmarshall cdb d
  else if opcode = 0xa3 then scsiMaintenanceinDatainUnmarshall cdb d
  else if opcode = 0x84 then scsiReceivecopyresultsDatainUnmarshall cdb d
  else pure false

end

end Libiscsi.Unmarshall
