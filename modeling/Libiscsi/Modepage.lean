import Libiscsi.Bytes

/-!
# Mode pages

`scsi_modesense_dataout_marshall` and `scsi_modesense_datain_unmarshall`
(`lib/scsi-lowlevel.c`): a mode page is packed into the data of a MODE SELECT, and the mode pages
of a MODE SENSE are read from its data. Buffers that are allocated for this are zeroed, and
allocations succeed.
-/

namespace Libiscsi

/-! ## Pages -/

/-- `struct scsi_mode_page_caching`. An `int` that is packed into one bit is the truth value it is
tested for, one that is packed into a few bits has the eight lowest, and `uint16_t` and `uint32_t`
are those an `int` of as many bits is packed into. -/
structure ModePageCaching where
  ic : Bool
  abpf : Bool
  cap : Bool
  disc : Bool
  size : Bool
  wce : Bool
  mf : Bool
  rcd : Bool
  demandReadRetentionPriority : UInt8
  writeRetentionPriority : UInt8
  disablePrefetchTransferLength : UInt16
  minimumPrefetch : UInt16
  maximumPrefetch : UInt16
  maximumPrefetchCeiling : UInt16
  fsw : Bool
  lbcss : Bool
  dra : Bool
  nvDis : Bool
  numberOfCacheSegments : UInt8
  cacheSegmentSize : UInt16
  deriving DecidableEq, Repr

/-- `struct scsi_mode_page_power_condition`. -/
structure ModePagePowerCondition where
  pmBgPrecedence : UInt8
  standbyY : Bool
  idleC : Bool
  idleB : Bool
  idleA : Bool
  standbyZ : Bool
  idleAConditionTimer : UInt32
  standbyZConditionTimer : UInt32
  idleBConditionTimer : UInt32
  idleCConditionTimer : UInt32
  standbyYConditionTimer : UInt32
  ccfIdle : UInt8
  ccfStandby : UInt8
  ccfStopped : UInt8
  deriving DecidableEq, Repr

/-- `struct scsi_mode_page_control`. -/
structure ModePageControl where
  tst : UInt8
  tmfOnly : Bool
  dpicz : Bool
  dSense : Bool
  gltsd : Bool
  rlec : Bool
  queueAlgorithmModifier : UInt8
  nuar : Bool
  qerr : UInt8
  vs : Bool
  rac : Bool
  uaIntlckCtrl : UInt8
  swp : Bool
  ato : Bool
  tas : Bool
  atmpe : Bool
  rwwp : Bool
  autoloadMode : UInt8
  busyTimeoutPeriod : UInt16
  extendedSelftestCompletionTime : UInt16
  deriving DecidableEq, Repr

/-- `struct scsi_mode_page_disconnect_reconnect`. -/
structure ModePageDisconnectReconnect where
  bufferFullRatio : UInt8
  bufferEmptyRatio : UInt8
  busInactivityLimit : UInt16
  disconnectTimeLimit : UInt16
  connectTimeLimit : UInt16
  maximumBurstSize : UInt16
  emdp : Bool
  fairArbitration : UInt8
  dimm : Bool
  dtdc : UInt8
  firstBurstSize : UInt16
  deriving DecidableEq, Repr

/-- `struct scsi_mode_page_informational_exceptions_control`. -/
structure ModePageInformationalExceptionsControl where
  perf : Bool
  ebf : Bool
  ewasc : Bool
  dexcpt : Bool
  test : Bool
  ebackerr : Bool
  logerr : Bool
  mrie : UInt8
  intervalTimer : UInt32
  reportCount : UInt32
  deriving DecidableEq, Repr

/-- The union of `struct scsi_mode_page`, which its `page_code` tells apart; of a page with any
other code nothing but the code is kept. -/
inductive ModePageData where
  | caching (p : ModePageCaching)
  | control (p : ModePageControl)
  | disconnectReconnect (p : ModePageDisconnectReconnect)
  | iec (p : ModePageInformationalExceptionsControl)
  | powerCondition (p : ModePagePowerCondition)
  | other (pageCode : UInt8)
  deriving DecidableEq, Repr

/-- `struct scsi_mode_page`. `ps` and `spf` are tested for their truth values only. -/
structure ScsiModePage where
  ps : Bool
  spf : Bool
  subpageCode : UInt8 := 0
  len : Nat := 0
  data : ModePageData
  deriving DecidableEq, Repr

/-- `mp->page_code`. -/
def ModePageData.pageCode : ModePageData → UInt8
  | caching _ => 0x08
  | control _ => 0x0a
  | disconnectReconnect _ => 0x02
  | iec _ => 0x1c
  | powerCondition _ => 0x1a
  | other pageCode => pageCode

/-- `struct scsi_mode_sense`; the pages are in the order of the list, the last one first. -/
structure ScsiModeSense where
  modeDataLength : UInt16
  mediumType : UInt8
  deviceSpecificParameter : UInt8
  longlba : UInt8
  blockDescriptorLength : UInt8
  pages : List ScsiModePage
  deriving DecidableEq, Repr

/-! ## Packing -/

/-- `if (b) … |= mask`. -/
def maskIf (b : Bool) (mask : UInt8) : UInt8 := if b then mask else 0

/-- `(x << n) & mask`. -/
def shiftMask (x n mask : UInt8) : UInt8 := (x <<< n) &&& mask

/-- The two bytes that `scsi_set_uint16` writes. -/
def uint16Bytes (v : UInt16) : List UInt8 := [(v >>> 8).toUInt8, v.toUInt8]

/-- The four bytes that `scsi_set_uint32` writes. -/
def uint32Bytes (v : UInt32) : List UInt8 :=
  [(v >>> 24).toUInt8, (v >>> 16).toUInt8, (v >>> 8).toUInt8, v.toUInt8]

/-- `scsi_modesense_marshall_caching`, from `data[hdr_size]` on. -/
def scsiModesenseMarshallCaching (p : ModePageCaching) : List UInt8 :=
  [(0 : UInt8), 0,
    maskIf p.ic 0x80 ||| maskIf p.abpf 0x40 ||| maskIf p.cap 0x20 ||| maskIf p.disc 0x10 |||
      maskIf p.size 0x08 ||| maskIf p.wce 0x04 ||| maskIf p.mf 0x02 ||| maskIf p.rcd 0x01,
    shiftMask p.demandReadRetentionPriority 4 0xf0 ||| (p.writeRetentionPriority &&& 0x0f)] ++
  uint16Bytes p.disablePrefetchTransferLength ++ uint16Bytes p.minimumPrefetch ++
  uint16Bytes p.maximumPrefetch ++ uint16Bytes p.maximumPrefetchCeiling ++
  [maskIf p.fsw 0x80 ||| maskIf p.lbcss 0x40 ||| maskIf p.dra 0x20 ||| maskIf p.nvDis 0x01,
    p.numberOfCacheSegments] ++
  uint16Bytes p.cacheSegmentSize ++ List.replicate 4 0

/-- `scsi_modesense_marshall_control`. -/
def scsiModesenseMarshallControl (p : ModePageControl) : List UInt8 :=
  [(0 : UInt8), 0,
    shiftMask p.tst 5 0xe0 ||| maskIf p.tmfOnly 0x10 ||| maskIf p.dpicz 0x08 |||
      maskIf p.dSense 0x04 ||| maskIf p.gltsd 0x02 ||| maskIf p.rlec 0x01,
    shiftMask p.queueAlgorithmModifier 4 0xf0 ||| maskIf p.nuar 0x08 |||
      shiftMask p.qerr 1 0x06,
    maskIf p.vs 0x80 ||| maskIf p.rac 0x40 ||| shiftMask p.uaIntlckCtrl 4 0x30 |||
      maskIf p.swp 0x08,
    maskIf p.ato 0x80 ||| maskIf p.tas 0x40 ||| maskIf p.atmpe 0x20 ||| maskIf p.rwwp 0x10 |||
      (p.autoloadMode &&& 0x07),
    0, 0] ++
  uint16Bytes p.busyTimeoutPeriod ++ uint16Bytes p.extendedSelftestCompletionTime

/-- `scsi_modesense_marshall_power_condition`. -/
def scsiModesenseMarshallPowerCondition (p : ModePagePowerCondition) : List UInt8 :=
  [(0 : UInt8), 0,
    shiftMask p.pmBgPrecedence 6 0xc0 ||| maskIf p.standbyY 0x01,
    maskIf p.idleC 0x08 ||| maskIf p.idleB 0x04 ||| maskIf p.idleA 0x02 |||
      maskIf p.standbyZ 0x01] ++
  uint32Bytes p.idleAConditionTimer ++ uint32Bytes p.standbyZConditionTimer ++
  uint32Bytes p.idleBConditionTimer ++ uint32Bytes p.idleCConditionTimer ++
  uint32Bytes p.standbyYConditionTimer ++ List.replicate 15 0 ++
  [shiftMask p.ccfIdle 6 0xc0 ||| shiftMask p.ccfStandby 4 0x30 |||
    shiftMask p.ccfStopped 2 0x0c]

/-- `scsi_modesense_marshall_disconnect_reconnect`. -/
def scsiModesenseMarshallDisconnectReconnect (p : ModePageDisconnectReconnect) : List UInt8 :=
  [(0 : UInt8), 0, p.bufferFullRatio, p.bufferEmptyRatio] ++
  uint16Bytes p.busInactivityLimit ++ uint16Bytes p.disconnectTimeLimit ++
  uint16Bytes p.connectTimeLimit ++ uint16Bytes p.maximumBurstSize ++
  [maskIf p.emdp 0x80 ||| shiftMask p.fairArbitration 4 0x70 ||| maskIf p.dimm 0x08 |||
      (p.dtdc &&& 0x07),
    0] ++
  uint16Bytes p.firstBurstSize

/-- `scsi_modesense_marshall_informational_exceptions_control`. -/
def scsiModesenseMarshallInformationalExceptionsControl
    (p : ModePageInformationalExceptionsControl) : List UInt8 :=
  [(0 : UInt8), 0,
    maskIf p.perf 0x80 ||| maskIf p.ebf 0x20 ||| maskIf p.ewasc 0x10 ||| maskIf p.dexcpt 0x08 |||
      maskIf p.test 0x04 ||| maskIf p.ebackerr 0x02 ||| maskIf p.logerr 0x01,
    p.mrie &&& 0x0f] ++
  uint32Bytes p.intervalTimer ++ uint32Bytes p.reportCount

/-- The `switch` of `scsi_modesense_dataout_marshall`. -/
def ModePageData.marshall : ModePageData → Option (List UInt8)
  | caching p => some (scsiModesenseMarshallCaching p)
  | control p => some (scsiModesenseMarshallControl p)
  | disconnectReconnect p => some (scsiModesenseMarshallDisconnectReconnect p)
  | iec p => some (scsiModesenseMarshallInformationalExceptionsControl p)
  | powerCondition p => some (scsiModesenseMarshallPowerCondition p)
  | other _ => none

/-- The size of the header of a MODE SELECT or MODE SENSE. -/
def modeHeaderSize (six : Bool) : Nat := if six then 4 else 8

/-- `scsi_modesense_dataout_marshall`. -/
def scsiModesenseDataoutMarshall (mp : ScsiModePage) (isModeselect6 : Bool) :
    Option (List UInt8) :=
  let hdrSize := modeHeaderSize isModeselect6
  mp.data.marshall.map fun page =>
    let size := hdrSize + page.length
    let data := List.replicate hdrSize 0 ++ page
    let data := data.set hdrSize
      ((mp.data.pageCode &&& 0x3f) ||| maskIf mp.ps 0x80 ||| maskIf mp.spf 0x40)
    if mp.spf then
      scsiSetUint16 (data.set (hdrSize + 1) mp.subpageCode) (hdrSize + 2)
        (UInt16.ofNat (size - hdrSize - 4))
    else data.set (hdrSize + 1) (UInt8.ofNat (size - hdrSize - 2))

/-! ## Unpacking -/

/-- `task_get_uint8`. -/
def taskGetUint8 (datain : List UInt8) (offset : Nat) : UInt8 :=
  if offset + 1 ≤ datain.length then byte datain offset else 0

/-- `task_get_uint16`. -/
def taskGetUint16 (datain : List UInt8) (offset : Nat) : UInt16 :=
  if offset + 2 ≤ datain.length then scsiGetUint16 datain offset else 0

/-- `task_get_uint32`. -/
def taskGetUint32 (datain : List UInt8) (offset : Nat) : UInt32 :=
  if offset + 4 ≤ datain.length then scsiGetUint32 datain offset else 0

/-- `!!(b & mask)`. -/
def testMask (b mask : UInt8) : Bool := b &&& mask != 0

section
variable (d : List UInt8) (pos : Nat)

/-- `scsi_parse_mode_caching`. -/
def scsiParseModeCaching : ModePageCaching where
  ic := testMask (taskGetUint8 d pos) 0x80
  abpf := testMask (taskGetUint8 d pos) 0x40
  cap := testMask (taskGetUint8 d pos) 0x20
  disc := testMask (taskGetUint8 d pos) 0x10
  size := testMask (taskGetUint8 d pos) 0x08
  wce := testMask (taskGetUint8 d pos) 0x04
  mf := testMask (taskGetUint8 d pos) 0x02
  rcd := testMask (taskGetUint8 d pos) 0x01
  demandReadRetentionPriority := (taskGetUint8 d (pos + 1) >>> 4) &&& 0x0f
  writeRetentionPriority := taskGetUint8 d (pos + 1) &&& 0x0f
  disablePrefetchTransferLength := taskGetUint16 d (pos + 2)
  minimumPrefetch := taskGetUint16 d (pos + 4)
  maximumPrefetch := taskGetUint16 d (pos + 6)
  maximumPrefetchCeiling := taskGetUint16 d (pos + 8)
  fsw := testMask (taskGetUint8 d (pos + 10)) 0x80
  lbcss := testMask (taskGetUint8 d (pos + 10)) 0x40
  dra := testMask (taskGetUint8 d (pos + 10)) 0x20
  nvDis := testMask (taskGetUint8 d (pos + 10)) 0x01
  numberOfCacheSegments := taskGetUint8 d (pos + 11)
  cacheSegmentSize := taskGetUint16 d (pos + 12)

/-- `scsi_parse_mode_control`. -/
def scsiParseModeControl : ModePageControl where
  tst := (taskGetUint8 d pos >>> 5) &&& 0x07
  tmfOnly := testMask (taskGetUint8 d pos) 0x10
  dpicz := testMask (taskGetUint8 d pos) 0x08
  dSense := testMask (taskGetUint8 d pos) 0x04
  gltsd := testMask (taskGetUint8 d pos) 0x02
  rlec := testMask (taskGetUint8 d pos) 0x01
  queueAlgorithmModifier := (taskGetUint8 d (pos + 1) >>> 4) &&& 0x0f
  nuar := testMask (taskGetUint8 d (pos + 1)) 0x08
  qerr := (taskGetUint8 d (pos + 1) >>> 1) &&& 0x03
  vs := testMask (taskGetUint8 d (pos + 2)) 0x80
  rac := testMask (taskGetUint8 d (pos + 2)) 0x40
  uaIntlckCtrl := (taskGetUint8 d (pos + 2) >>> 4) &&& 0x0f
  swp := testMask (taskGetUint8 d (pos + 2)) 0x08
  ato := testMask (taskGetUint8 d (pos + 3)) 0x80
  tas := testMask (taskGetUint8 d (pos + 3)) 0x40
  atmpe := testMask (taskGetUint8 d (pos + 3)) 0x20
  rwwp := testMask (taskGetUint8 d (pos + 3)) 0x10
  autoloadMode := if testMask (taskGetUint8 d (pos + 3)) 0x07 then 1 else 0
  busyTimeoutPeriod := taskGetUint16 d (pos + 6)
  extendedSelftestCompletionTime := taskGetUint16 d (pos + 8)

/-- `scsi_parse_mode_power_condition`. -/
def scsiParseModePowerCondition : ModePagePowerCondition where
  pmBgPrecedence := (taskGetUint8 d pos >>> 6) &&& 0x03
  standbyY := testMask (taskGetUint8 d pos) 0x01
  idleC := testMask (taskGetUint8 d (pos + 1)) 0x08
  idleB := testMask (taskGetUint8 d (pos + 1)) 0x04
  idleA := testMask (taskGetUint8 d (pos + 1)) 0x02
  standbyZ := testMask (taskGetUint8 d (pos + 1)) 0x01
  idleAConditionTimer := taskGetUint32 d (pos + 2)
  standbyZConditionTimer := taskGetUint32 d (pos + 6)
  idleBConditionTimer := taskGetUint32 d (pos + 10)
  idleCConditionTimer := taskGetUint32 d (pos + 14)
  standbyYConditionTimer := taskGetUint32 d (pos + 18)
  ccfIdle := (taskGetUint8 d (pos + 37) >>> 6) &&& 0x03
  ccfStandby := (taskGetUint8 d (pos + 37) >>> 4) &&& 0x03
  ccfStopped := (taskGetUint8 d (pos + 37) >>> 2) &&& 0x03

/-- `scsi_parse_mode_disconnect_reconnect`. -/
def scsiParseModeDisconnectReconnect : ModePageDisconnectReconnect where
  bufferFullRatio := taskGetUint8 d pos
  bufferEmptyRatio := taskGetUint8 d (pos + 1)
  busInactivityLimit := taskGetUint16 d (pos + 2)
  disconnectTimeLimit := taskGetUint16 d (pos + 4)
  connectTimeLimit := taskGetUint16 d (pos + 6)
  maximumBurstSize := taskGetUint16 d (pos + 8)
  emdp := testMask (taskGetUint8 d (pos + 10)) 0x80
  fairArbitration := (taskGetUint8 d (pos + 10) >>> 4) &&& 0x0f
  dimm := testMask (taskGetUint8 d (pos + 10)) 0x08
  dtdc := taskGetUint8 d (pos + 10) &&& 0x07
  firstBurstSize := taskGetUint16 d (pos + 12)

/-- `scsi_parse_mode_informational_exceptions_control`. -/
def scsiParseModeInformationalExceptionsControl : ModePageInformationalExceptionsControl where
  perf := testMask (taskGetUint8 d pos) 0x80
  ebf := testMask (taskGetUint8 d pos) 0x20
  ewasc := testMask (taskGetUint8 d pos) 0x10
  dexcpt := testMask (taskGetUint8 d pos) 0x08
  test := testMask (taskGetUint8 d pos) 0x04
  ebackerr := testMask (taskGetUint8 d pos) 0x02
  logerr := testMask (taskGetUint8 d pos) 0x01
  mrie := taskGetUint8 d (pos + 1) &&& 0x0f
  intervalTimer := taskGetUint32 d (pos + 2)
  reportCount := taskGetUint32 d (pos + 6)

/-- The `switch` of `scsi_modesense_datain_unmarshall`. -/
def parseModePage (pageCode : UInt8) : ModePageData :=
  if pageCode = 0x08 then .caching (scsiParseModeCaching d pos)
  else if pageCode = 0x0a then .control (scsiParseModeControl d pos)
  else if pageCode = 0x02 then .disconnectReconnect (scsiParseModeDisconnectReconnect d pos)
  else if pageCode = 0x1c then .iec (scsiParseModeInformationalExceptionsControl d pos)
  else if pageCode = 0x1a then .powerCondition (scsiParseModePowerCondition d pos)
  else .other pageCode

end

/-- The loop of `scsi_modesense_datain_unmarshall`. The number bounds the turns: each goes on by
at least two bytes. -/
def parseModePages (d : List UInt8) : Nat → Nat → List ScsiModePage → List ScsiModePage
  | 0, _, pages => pages
  | fuel + 1, pos, pages =>
    if pos < d.length then
      let b := taskGetUint8 d pos
      if testMask b 0x40 then
        let len := (taskGetUint16 d (pos + 2)).toNat
        let page := { ps := testMask b 0x80, spf := true, subpageCode := taskGetUint8 d (pos + 1),
                      len, data := parseModePage d (pos + 4) (b &&& 0x3f) }
        parseModePages d fuel (pos + 4 + len) (page :: pages)
      else
        let len := (taskGetUint8 d (pos + 1)).toNat
        let page := { ps := testMask b 0x80, spf := false, subpageCode := 0, len
                      data := parseModePage d (pos + 2) (b &&& 0x3f) }
        parseModePages d fuel (pos + 2 + len) (page :: pages)
    else pages

/-- `scsi_modesense_datain_unmarshall`. -/
def scsiModesenseDatainUnmarshall (d : List UInt8) (isModesense6 : Bool) :
    Option ScsiModeSense :=
  let hdrLen := modeHeaderSize isModesense6
  if d.length < hdrLen then none
  else
    let ms : ScsiModeSense :=
      if isModesense6 then
        { modeDataLength := (taskGetUint8 d 0).toUInt16
          mediumType := taskGetUint8 d 1
          deviceSpecificParameter := taskGetUint8 d 2
          longlba := 0
          blockDescriptorLength := taskGetUint8 d 3
          pages := [] }
      else
        { modeDataLength := taskGetUint16 d 0
          mediumType := taskGetUint8 d 2
          deviceSpecificParameter := taskGetUint8 d 3
          longlba := taskGetUint8 d 4 &&& 0x01
          blockDescriptorLength := (taskGetUint16 d 6).toUInt8
          pages := [] }
    if ms.modeDataLength.toNat + 1 > d.length then none
    else some { ms with
      pages := parseModePages d d.length (hdrLen + ms.blockDescriptorLength.toNat) [] }

end Libiscsi
