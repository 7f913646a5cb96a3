import Libiscsi.Login

/-!
# Login Responses

`iscsi_process_pdu_serials` (`lib/pdu.c`) for a Login Response, and `iscsi_process_login_reply`
(`lib/login.c`). The loop over the strings of the data segment is split into the search for the
strings and what one string does.
-/

namespace Libiscsi

open CString

/-! ## Strings -/

/-- The strings of a data segment up to the first empty one, and whether the last bytes have no NUL.
The number bounds the turns. -/
def loginStrings : Nat → List UInt8 → List CStr × Bool
  | 0, _ => ([], false)
  | fuel + 1, data =>
    if data = [] then ([], false)
    else
      let s := first data
      if s.length = data.length then ([], true)
      else if s = [] then ([], false)
      else
        let (rest, unterminated) := loginStrings fuel (data.drop (s.length + 1))
        (s :: rest, unterminated)

/-- `!strncmp(ptr, key, strlen(key))`. -/
def hasKey (s : CStr) (key : String) : Bool := (ofString key).isPrefixOf s

/-- `!strcmp(ptr + strlen(key), value)`. -/
def hasValue (s : CStr) (key value : String) : Bool := s.drop key.length == ofString value

/-- `h2i`, in the eight bits that the callers use. -/
def h2i (h : UInt8) : UInt8 :=
  if 0x61 ≤ h ∧ h ≤ 0x66 then h - 0x61 + 10
  else if 0x41 ≤ h ∧ h ≤ 0x46 then h - 0x41 + 10
  else h - 0x30

/-- `(h2i(hi) << 4) | h2i(lo)`, as an `unsigned char`. -/
def hexByte (hi lo : UInt8) : UInt8 := (h2i hi <<< 4) ||| h2i lo

/-- What the loop over the strings changes: the context, and what a target that has to
authenticate itself has not shown yet. -/
structure LoginParse where
  c : Context
  mustHaveChapN : Bool
  mustHaveChapR : Bool

/-- A digest that the target answers. -/
def answeredDigest (s : CStr) (key : String) : DigestMode :=
  if hasValue s key "CRC32C" then .crc32c else .none

/-- A `long` that is stored in a `uint32_t`. -/
def storedInt (s : CStr) : UInt32 := UInt32.ofInt (strtol s)

/-- `MIN(strtoul(s, NULL, 10), v)`, stored in a `uint32_t`. -/
def storedMin (s : CStr) (v : UInt32) : UInt32 := UInt32.ofNat (min (strtoul s) v.toNat)

/-- What a string does to the context, but for the CHAP keys. -/
def loginKey (c : Context) (s : CStr) : Context :=
  let c := if hasKey s "TargetAddress=" then
    { c with targetAddress := strncpy (s.drop 14) maxStringSize } else c
  let c := if hasKey s "TargetName=" then
    { c with targetName2 := strncpy (s.drop 11) maxIscsiNameSize } else c
  let c := if hasKey s "HeaderDigest=" then
    { c with wantHeaderDigest := answeredDigest s "HeaderDigest=" } else c
  let c := if hasKey s "DataDigest=" then
    { c with wantDataDigest := answeredDigest s "DataDigest=" } else c
  let c := if hasKey s "FirstBurstLength=" then
    { c with firstBurstLength := storedInt (s.drop 17) } else c
  let c := if hasKey s "InitialR2T=" then
    { c with useInitialR2t := !hasValue s "InitialR2T=" "No" } else c
  let c := if hasKey s "ImmediateData=" then
    if hasValue s "ImmediateData=" "No" then { c with useImmediateData := false }
    else if !c.wantImmediateData then { c with useImmediateData := false }
    else c
  else c
  let c := if hasKey s "MaxBurstLength=" then
    { c with maxBurstLength := storedInt (s.drop 15) } else c
  let c := if hasKey s "MaxRecvDataSegmentLength=" then
    { c with targetMaxRecvDataSegmentLength := storedInt (s.drop 25) } else c
  let c := if hasKey s "InitiatorRecvDataSegmentLength=" then
    { c with
      initiatorMaxRecvDataSegmentLength :=
        storedMin (s.drop 31) c.initiatorMaxRecvDataSegmentLength } else c
  if hasKey s "TargetRecvDataSegmentLength=" then
    { c with
      targetMaxRecvDataSegmentLength :=
        storedMin (s.drop 28) c.targetMaxRecvDataSegmentLength } else c

/-- The bytes of a CHAP response, as the target sends it. -/
def receivedChapR (s : CStr) (size : Nat) : List UInt8 :=
  (List.range size).map fun i => hexByte (byte s (9 + 2 * i)) (byte s (9 + 2 * i + 1))

/-- The keys `AuthMethod`, `CHAP_A` and `CHAP_I`. -/
def chapPhaseKey (c : Context) (s : CStr) : Context :=
  let c := if hasKey s "AuthMethod=" && hasValue s "AuthMethod=" "CHAP" then
    { c with secnegPhase := .selectAlgorithm } else c
  let c := if hasKey s "CHAP_A=" then
    { c with chapA := atoi (s.drop 7), secnegPhase := .sendResponse } else c
  if hasKey s "CHAP_I=" then
    { c with chapI := atoi (s.drop 7), secnegPhase := .sendResponse } else c

/-- The key `CHAP_C`. -/
def chapCKey (c : Context) (s : CStr) : Context :=
  if hasKey s "CHAP_C=0x" then { c with chapC := s.drop 9, secnegPhase := .sendResponse } else c

/-- `CHAP_C` is too long. -/
def chapCTooLong (s : CStr) : Bool := hasKey s "CHAP_C=0x" && s.length - 9 > maxChapCLength

/-- The key `CHAP_N`. -/
def chapNKey (st : LoginParse) (s : CStr) : Except Context LoginParse :=
  if hasKey s "CHAP_N=" then
    if st.c.targetUser ≠ s.drop 7 then .error st.c else .ok { st with mustHaveChapN := false }
  else .ok st

/-- The key `CHAP_R`. -/
def chapRKey (st : LoginParse) (s : CStr) : Except Context LoginParse :=
  if hasKey s "CHAP_R=0x" then
    let size := st.c.chapAuth.responseSize
    if s.length ≠ 9 + 2 * size then .error st.c
    else if receivedChapR s size ≠ st.c.targetChapR.take size then .error st.c
    else .ok { st with mustHaveChapR := false }
  else .ok st

/-- What the CHAP keys do. The error carries the context as it was left. -/
def loginChapKey (st : LoginParse) (s : CStr) : Except Context LoginParse := do
  let c := chapPhaseKey st.c s
  if chapCTooLong s then .error c
  else
    let st ← chapNKey { st with c := chapCKey c s } s
    chapRKey st s

/-- What one string does. -/
def loginString (st : LoginParse) (s : CStr) : Except Context LoginParse :=
  loginChapKey { st with c := loginKey st.c s } s

/-! ## The reply -/

/-- `if (iscsi_serial32_compare(sn, old) > 0) old = sn`. -/
def laterSerial (sn old : UInt32) : UInt32 := if iscsiSerial32Compare sn old > 0 then sn else old

/-- The StatSN that `iscsi_process_pdu_serials` reads. -/
def InPdu.serialStatsn (inPdu : InPdu) : UInt32 :=
  let statsn := scsiGetUint32 inPdu.hdr 24
  if inPdu.itt = 0xffffffff then statsn - 1 else statsn

/-- `iscsi_process_pdu_serials`, for a Login Response. -/
def iscsiProcessPduSerials (c : Context) (inPdu : InPdu) : Context :=
  if scsiGetUint16 inPdu.hdr 36 >>> 8 ≠ 0 then c
  else
    { c with
      maxcmdsn := laterSerial (scsiGetUint32 inPdu.hdr 32) c.maxcmdsn
      expcmdsn := laterSerial (scsiGetUint32 inPdu.hdr 28) c.expcmdsn
      statsn := laterSerial inPdu.serialStatsn c.statsn }

/-- What `iscsi_process_login_reply` ends with: a call of the callback and a return value, or a
call of `iscsi_login_async`. -/
inductive LoginAction where
  | callback (status : Status) (ret : Int)
  | login
  deriving DecidableEq, Repr

/-- `in->hdr[1] & ISCSI_PDU_LOGIN_TRANSIT`. -/
def InPdu.loginTransit (inPdu : InPdu) : Bool := inPdu.flags &&& iscsiPduLoginTransit != 0

/-- The target ends the login. -/
def InPdu.loginFinal (inPdu : InPdu) : Bool :=
  inPdu.loginTransit && inPdu.flags &&& iscsiPduLoginNsgFf == iscsiPduLoginNsgFf

/-- `in->hdr[36]` and the next byte: the status class and detail. -/
def InPdu.loginStatus (inPdu : InPdu) : UInt16 := scsiGetUint16 inPdu.hdr 36

/-- The StatSN is taken from the first reply of a session that begins with the security
negotiation. -/
def Context.takeStatsn (c : Context) (inPdu : InPdu) : Context :=
  if inPdu.loginStatus >>> 8 = 0 ∧ c.currentPhase = 0 ∧ c.secnegPhase = .offerChap then
    { c with statsn := scsiGetUint32 inPdu.hdr 24 }
  else c

/-- The target has to authenticate itself in this reply. -/
def mustAuthenticate (c : Context) (inPdu : InPdu) : Bool :=
  inPdu.loginTransit && inPdu.flags &&& iscsiPduLoginCsgFf == iscsiPduLoginCsgSecneg &&
    c.targetUser != []

/-- The loop over the strings. The return value goes with the error. -/
def parseLogin (c : Context) (inPdu : InPdu) : Except (Context × Int) LoginParse :=
  let must := mustAuthenticate c inPdu
  let (strings, unterminated) := loginStrings (inPdu.payload.length + 1) inPdu.payload
  match strings.foldlM loginString { c, mustHaveChapN := must, mustHaveChapR := must } with
  | .error c => .error (c, 0)
  | .ok st => if unterminated then .error (st.c, -1) else .ok st

/-- `iscsi->current_phase`, after the reply has changed the stage. -/
def Context.advance (c : Context) (inPdu : InPdu) : Context :=
  if inPdu.loginTransit then
    { c with currentPhase := (inPdu.flags &&& iscsiPduLoginNsgFf) <<< 2 }
  else c

/-- The session is logged in. -/
def Context.loggedIn (c : Context) : Context :=
  { c with
    isLoggedin := true
    itt := if c.itt + 1 = 0xffffffff then 0 else c.itt + 1
    headerDigest := c.wantHeaderDigest
    dataDigest := c.wantDataDigest }

/-- `iscsi_process_login_reply`. -/
def iscsiProcessLoginReply (c : Context) (inPdu : InPdu) : Context × LoginAction :=
  match parseLogin (c.takeStatsn inPdu) inPdu with
  | .error (c, ret) => (c, .callback scsiStatusError ret)
  | .ok st =>
    let c := st.c
    if inPdu.loginStatus.toNat = scsiStatusRedirect ∧ c.targetAddress ≠ [] then
      (c, .callback scsiStatusRedirect 0)
    else if inPdu.loginStatus ≠ 0 then (c, .callback scsiStatusError 0)
    else if st.mustHaveChapN then (c, .callback scsiStatusError 0)
    else if st.mustHaveChapR then (c, .callback scsiStatusError 0)
    else if inPdu.loginFinal then ((c.advance inPdu).loggedIn, .callback scsiStatusGood 0)
    else (c.advance inPdu, .login)

/-- A Login Response as `iscsi_process_pdu` handles it. -/
def receiveLogin (c : Context) (inPdu : InPdu) : Context × LoginAction :=
  iscsiProcessLoginReply (iscsiProcessPduSerials c inPdu) inPdu

end Libiscsi
