import Libiscsi.Reconnect
import Libiscsi.Lib.CString

/-!
# Login

`iscsi_login_async`, the functions `iscsi_login_add_*` and `iscsi_process_login_reply`
(`lib/login.c`), as functions of the context. A Login Request is what goes into its PDU: the flags,
the numbers and the strings, each of which ends with a NUL in the data segment. An `int` that is
stored in an unsigned field is given by its bits.
-/

namespace Libiscsi

open CString

/-! ## Numbers in texts -/

/-- `isspace`. -/
def isSpaceByte (b : UInt8) : Bool := b == 0x20 || (0x09 ≤ b && b ≤ 0x0d)

/-- `isdigit`. -/
def isDigitByte (b : UInt8) : Bool := 0x30 ≤ b && b ≤ 0x39

/-- The number that the digits at the beginning of a text stand for. -/
def decimalValue (s : CStr) : Nat :=
  (s.takeWhile isDigitByte).foldl (fun n b => 10 * n + (b.toNat - 48)) 0

/-- `strtol(s, NULL, 10)`, for a `long` of 64 bits. -/
def strtol (s : CStr) : Int :=
  match s.dropWhile isSpaceByte with
  | 0x2d :: s => max (-(decimalValue s : Int)) (-2 ^ 63)
  | 0x2b :: s => min (decimalValue s) (2 ^ 63 - 1)
  | s => min (decimalValue s) (2 ^ 63 - 1)

/-- `strtoul(s, NULL, 10)`, for an `unsigned long` of 64 bits. -/
def strtoul (s : CStr) : Nat :=
  match s.dropWhile isSpaceByte with
  | 0x2d :: s => if decimalValue s < 2 ^ 64 then (2 ^ 64 - decimalValue s) % 2 ^ 64 else 2 ^ 64 - 1
  | 0x2b :: s => min (decimalValue s) (2 ^ 64 - 1)
  | s => min (decimalValue s) (2 ^ 64 - 1)

/-- `atoi`. -/
def atoi (s : CStr) : Int := (Int32.ofInt (strtol s)).toInt

/-- What `%d` prints. -/
def decimal (n : Int) : CStr := ofString (toString n)

/-- `snprintf(str, MAX_STRING_SIZE, …)`. -/
def snprintf (s : CStr) : CStr := s.take (maxStringSize - 1)

/-! ## Login Requests -/

/-- What a Login Request consists of. -/
structure LoginRequest where
  flags : UInt8
  itt : UInt32
  cmdsn : UInt32
  keys : List CStr
  deriving DecidableEq, Repr

/-- What the environment decides of a Login Request: the numbers of `rand`, whether the
allocations succeed, and an environment variable. `computeChapR` is `compute_chap_r`: from the
algorithm, the identifier, the password and the challenge to the digest. -/
structure LoginEnv where
  randItt : UInt32 := 0
  randCmdsn : UInt32 := 0
  challenge : List UInt8 := []
  allocates : Bool := true
  allowTargetnameRedirect : Bool := false
  computeChapR : ChapAuth → Int → CStr → CStr → List UInt8 := fun _ _ _ _ => []

/-- The first leg of the security negotiation, or the operational negotiation before any. -/
def Context.offersChap (c : Context) : Bool := c.secnegPhase == .offerChap

/-- `iscsi->current_phase == ISCSI_PDU_LOGIN_CSG_OPNEG`. -/
def Context.inOpneg (c : Context) : Bool := c.currentPhase == iscsiPduLoginCsgOpneg

/-- `iscsi->current_phase == ISCSI_PDU_LOGIN_CSG_SECNEG`. -/
def Context.inSecneg (c : Context) : Bool := c.currentPhase == iscsiPduLoginCsgSecneg

/-- A key that is added if the condition holds. -/
def addKey (cond : Bool) (key : CStr) : List CStr := if cond then [key] else []

section
variable (env : LoginEnv) (c : Context)

/-- `iscsi_login_add_initiatorname`. -/
def iscsiLoginAddInitiatorname : List CStr :=
  addKey c.offersChap (snprintf (ofString "InitiatorName=" ++ c.initiatorName))

/-- `iscsi_login_add_alias`, where there is one. -/
def iscsiLoginAddAlias : List CStr :=
  addKey (c.initiatorAlias != [] && c.offersChap)
    (snprintf (ofString "InitiatorAlias=" ++ c.initiatorAlias))

/-- The name that is asked for: that of a redirect, if the environment allows it. -/
def loginTargetname : CStr :=
  if c.targetAddress ≠ [] ∧ c.targetName2 ≠ [] ∧ env.allowTargetnameRedirect then c.targetName2
  else c.targetName

/-- `iscsi_login_add_targetname`, for a normal session. `none` says that the name is not set. -/
def iscsiLoginAddTargetname : Option (List CStr) :=
  if c.sessionType ≠ .normal ∨ !c.offersChap then some []
  else if c.targetName = [] then none
  else some [snprintf (ofString "TargetName=" ++ loginTargetname env c)]

/-- `iscsi_login_add_sessiontype`. -/
def iscsiLoginAddSessiontype : List CStr :=
  addKey c.offersChap
    (if c.sessionType = .discovery then ofString "SessionType=Discovery"
    else ofString "SessionType=Normal")

/-- A digest key. -/
def digestKey (key : String) (mode : DigestMode) : CStr :=
  ofString key ++ match mode with
    | .none => ofString "None"
    | .noneCrc32c => ofString "None,CRC32C"
    | .crc32cNone => ofString "CRC32C,None"
    | .crc32c => ofString "CRC32C"

/-- `Yes` or `No`. -/
def yesNo (b : Bool) : CStr := if b then ofString "Yes" else ofString "No"

/-- `iscsi_login_add_headerdigest`. -/
def iscsiLoginAddHeaderdigest : List CStr :=
  addKey c.inOpneg (digestKey "HeaderDigest=" c.wantHeaderDigest)

/-- `iscsi_login_add_authmethod`. -/
def iscsiLoginAddAuthmethod : List CStr :=
  addKey (c.inSecneg && c.offersChap) (ofString "AuthMethod=CHAP,None")

/-- The number of a CHAP algorithm, `enum iscsi_chap_auth`. -/
def ChapAuth.number : ChapAuth → Int
  | .md5 => 5
  | .sha1 => 6
  | .sha256 => 7
  | .sha3256 => 8

/-- `iscsi_login_add_authalgorithm`. -/
def iscsiLoginAddAuthalgorithm : List CStr :=
  addKey (c.inSecneg && c.secnegPhase == .selectAlgorithm)
    (snprintf (ofString "CHAP_A=" ++ decimal c.chapAuth.number))

/-- `iscsi_login_add_chap_username`. -/
def iscsiLoginAddChapUsername : List CStr :=
  addKey (c.inSecneg && c.secnegPhase == .sendResponse) (ofString "CHAP_N=" ++ c.user)

/-- `i2h`. -/
def i2h (i : UInt8) : UInt8 := if i ≥ 10 then i - 10 + 0x41 else i + 0x30

/-- Bytes as hexadecimal text. -/
def toHex (bytes : List UInt8) : CStr :=
  bytes.flatMap fun (b : UInt8) => [i2h (b >>> 4), i2h (b &&& 0x0f)]

/-- The size of a CHAP response. -/
def ChapAuth.responseSize : ChapAuth → Nat
  | .md5 => 16
  | .sha1 => 20
  | .sha256 | .sha3256 => 32

/-- `iscsi_login_add_chap_response`. A target that has to authenticate itself gets a challenge, and
its response is computed. `none` says that there is no challenge to respond to. -/
def iscsiLoginAddChapResponse : Option (Context × List CStr) :=
  if !(c.inSecneg && c.secnegPhase == .sendResponse) then some (c, [])
  else if c.chapC = [] then none
  else
    let size := c.chapAuth.responseSize
    let response := env.computeChapR c.chapAuth c.chapI c.passwd c.chapC
    let keys := [ofString "CHAP_R=0x" ++ toHex (response.take size)]
    if c.targetUser = [] then some (c, keys)
    else
      let i := c.targetChapI + 1
      let challenge := toHex (env.challenge.take (size * 2))
      let c := { c with
        targetChapI := i
        targetChapR := env.computeChapR c.chapAuth i c.targetPasswd challenge }
      some (c, keys ++ [snprintf (ofString "CHAP_I=" ++ decimal i),
        ofString "CHAP_C=0x" ++ challenge])

/-- `iscsi_login_add_datadigest`. -/
def iscsiLoginAddDatadigest : List CStr :=
  addKey c.inOpneg (digestKey "DataDigest=" c.wantDataDigest)

/-- `iscsi_login_add_initialr2t`. -/
def iscsiLoginAddInitialr2t : List CStr :=
  addKey c.inOpneg (ofString "InitialR2T=" ++ yesNo c.wantInitialR2t)

/-- `iscsi_login_add_immediatedata`. -/
def iscsiLoginAddImmediatedata : List CStr :=
  addKey c.inOpneg (ofString "ImmediateData=" ++ yesNo c.wantImmediateData)

/-- A key with a number that the code prints as an `int`. -/
def intKey (key : String) (n : UInt32) : CStr := snprintf (ofString key ++ decimal n.toInt32.toInt)

/-- `iscsi_login_add_maxburstlength`. -/
def iscsiLoginAddMaxburstlength : List CStr :=
  addKey c.inOpneg (intKey "MaxBurstLength=" c.maxBurstLength)

/-- `iscsi_login_add_firstburstlength`. -/
def iscsiLoginAddFirstburstlength : List CStr :=
  addKey c.inOpneg (intKey "FirstBurstLength=" c.firstBurstLength)

/-- `iscsi_login_add_maxrecvdatasegmentlength`. -/
def iscsiLoginAddMaxrecvdatasegmentlength : List CStr :=
  addKey c.inOpneg (intKey "MaxRecvDataSegmentLength=" c.initiatorMaxRecvDataSegmentLength)

/-- The keys whose values are fixed: `iscsi_login_add_defaulttime2wait`, `_defaulttime2retain`,
`_maxoutstandingr2t`, `_errorrecoverylevel`, `_ifmarker`, `_ofmarker` and `_maxconnections`. -/
def iscsiLoginAddFixed : List CStr :=
  ["DefaultTime2Wait=2", "DefaultTime2Retain=0", "MaxOutstandingR2T=1", "ErrorRecoveryLevel=0",
    "IFMarker=No", "OFMarker=No", "MaxConnections=1"].flatMap fun key =>
      addKey c.inOpneg (ofString key)

/-- `iscsi_login_add_datapduinorder` and `iscsi_login_add_datasequenceinorder`. -/
def iscsiLoginAddInOrder : List CStr :=
  ["DataPDUInOrder=Yes", "DataSequenceInOrder=Yes"].flatMap fun key =>
    addKey c.inOpneg (ofString key)

/-- The strings of a Login Request over TCP, in their order. -/
def loginKeys : Option (Context × List CStr) :=
  match iscsiLoginAddTargetname env c with
  | none => none
  | some targetname =>
    match iscsiLoginAddChapResponse env c with
    | none => none
    | some (c', chapResponse) =>
      some (c', iscsiLoginAddInitiatorname c ++ iscsiLoginAddAlias c ++ targetname ++
        iscsiLoginAddSessiontype c ++ iscsiLoginAddHeaderdigest c ++ iscsiLoginAddAuthmethod c ++
        iscsiLoginAddAuthalgorithm c ++ iscsiLoginAddChapUsername c ++ chapResponse ++
        iscsiLoginAddDatadigest c ++ iscsiLoginAddInitialr2t c ++ iscsiLoginAddImmediatedata c ++
        iscsiLoginAddMaxburstlength c ++ iscsiLoginAddFirstburstlength c ++ iscsiLoginAddFixed c ++
        iscsiLoginAddMaxrecvdatasegmentlength c ++ iscsiLoginAddInOrder c)

/-- The random numbers that a session begins with. -/
def Context.randomized (env : LoginEnv) (c : Context) : Context :=
  if c.currentPhase = 0 ∧ c.secnegPhase = .offerChap then
    { c with
      itt := env.randItt, cmdsn := env.randCmdsn, expcmdsn := env.randCmdsn
      maxcmdsn := env.randCmdsn, minCmdsnWaiting := env.randCmdsn }
  else c

/-- The phases of the next Login Request. Without a user there is no security negotiation. -/
def Context.phased (c : Context) : Context :=
  let c := if c.user = [] then { c with currentPhase := iscsiPduLoginCsgOpneg } else c
  let c := if c.inSecneg then { c with nextPhase := iscsiPduLoginNsgOpneg } else c
  if c.inOpneg then { c with nextPhase := iscsiPduLoginNsgFf } else c

/-- The flags of a Login Request. -/
def Context.loginFlags (c : Context) : UInt8 :=
  let transit := if c.inOpneg || c.inSecneg && c.secnegPhase != .selectAlgorithm then
    iscsiPduLoginTransit else 0
  transit ||| c.currentPhase ||| c.nextPhase

/-- `iscsi_login_async`: the Login Request that is queued, or `none` for the return value -1. -/
def iscsiLoginAsync : Context × Option LoginRequest :=
  let attempts := c.loginAttempts
  let c := { c with loginAttempts := attempts + 1 }
  if attempts > 10 then (c, none)
  else if c.isLoggedin then (c, none)
  else if c.sessionType = .unset then (c, none)
  else
    let c := c.randomized env
    if !env.allocates then (c, none)
    else
      let c := c.phased
      match loginKeys env c with
      | none => (c, none)
      | some (c', keys) =>
        (c', some { flags := c.loginFlags, itt := c.itt, cmdsn := c.cmdsn, keys })

end

end Libiscsi
