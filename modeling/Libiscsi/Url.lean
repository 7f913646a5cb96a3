import Libiscsi.LoginReply

/-!
# URLs

`iscsi_parse_url` and what it calls (`lib/init.c`), with iSER. A string that the code cuts by
writing a NUL into it is here the string before the cut and the one after it. The target is decoded
in its buffer, as the code does it.

The structure for the result is allocated without failure, and the transport that
`iscsi_init_transport` sets is only noted.
-/

namespace Libiscsi

open CString

/-- `struct iscsi_url`, without the context that it points to. -/
structure IscsiUrl where
  portal : CStr := []
  target : CStr := []
  user : CStr := []
  passwd : CStr := []
  targetUser : CStr := []
  targetPasswd : CStr := []
  lun : Int := 0
  /-- `transport`. -/
  isIser : Bool := false
  deriving DecidableEq, Repr

/-- The environment variables that are looked at, and the byte that stands on the stack where
`str[MAX_STRING_SIZE]` is. -/
structure UrlEnv where
  chapUsername : Option CStr := none
  chapPassword : Option CStr := none
  chapTargetUsername : Option CStr := none
  chapTargetPassword : Option CStr := none
  stackByte : UInt8 := 0
  deriving DecidableEq, Repr

/-- The ways in which no URL is returned. -/
inductive UrlFailure where
  /-- NULL is returned, after `iscsi_set_error` with this text. -/
  | error (text : CStr)
  /-- A NULL pointer is dereferenced. -/
  | nullDeref
  /-- `str` is read beyond its end. -/
  | unterminated
  deriving DecidableEq, Repr

/-- The functions that may change the context, if there is one. -/
abbrev UrlM := EStateM UrlFailure (Option Context)

/-! ## The decoder -/

/-- A byte of a buffer is read. -/
def urlByte (buf : List UInt8) (i : Nat) : Except UrlFailure UInt8 :=
  match buf[i]? with
  | some b => .ok b
  | none => .error .unterminated

/-- The string at a position of a buffer, up to its NUL. -/
def urlString (buf : List UInt8) (i : Nat) : Except UrlFailure CStr :=
  if 0 ∈ buf.drop i then .ok (first (buf.drop i)) else .error .unterminated

/-- `memmove(buf + i, bytes, …)`. -/
def moveTo (buf : List UInt8) (i : Nat) (bytes : List UInt8) : List UInt8 :=
  buf.take i ++ bytes ++ buf.drop (i + bytes.length)

/-- An escape is replaced by its byte, and the rest of the string is moved to the left. -/
def decodeEscape (buf : List UInt8) (str : Nat) (hi lo : UInt8) :
    Except UrlFailure (List UInt8) := do
  let buf := buf.set str (hexByte hi lo)
  let rest ← urlString buf (str + 3)
  let buf := moveTo buf (str + 1) rest
  -- The length is taken again, of the string that was moved over.
  let rest ← urlString buf (str + 3)
  .ok (buf.set (str + 1 + rest.length) 0)

/-- The loop of `iscsi_decode_url_string`. The number bounds the turns. -/
def decodeLoop : Nat → List UInt8 → Nat → Except UrlFailure (List UInt8)
  | 0, _, _ => .error .unterminated
  | fuel + 1, buf, str => do
    let b ← urlByte buf str
    if b = 0 then .ok buf
    else if b ≠ 0x25 then decodeLoop fuel buf (str + 1)
    else
      let hi ← urlByte buf (str + 1)
      if hi = 0 then .ok buf
      else
        let lo ← urlByte buf (str + 2)
        if lo = 0 then .ok buf
        else
          let buf ← decodeEscape buf str hi lo
          decodeLoop fuel buf (str + 3)

/-- `iscsi_decode_url_string`. -/
def iscsiDecodeUrlString (buf : List UInt8) : Except UrlFailure (List UInt8) :=
  decodeLoop buf.length buf 0

/-- A field of `struct iscsi_url`, set to zero and written with `strncpy`. -/
def urlField (s : CStr) : List UInt8 :=
  strncpy s maxStringSize ++ List.replicate (maxStringSize + 1 - (strncpy s maxStringSize).length) 0

/-! ## Cutting a string -/

/-- `strchr(s, c)`, where the string is cut: what stands before the first `c`, and what follows
it. -/
def cut (c : UInt8) (s : CStr) : CStr × Option CStr :=
  match s.dropWhile (· != c) with
  | [] => (s, none)
  | _ :: rest => (s.takeWhile (· != c), some rest)

/-- What follows a cut is shorter. -/
theorem length_cut {c : UInt8} {s before rest : CStr} (h : cut c s = (before, some rest)) :
    rest.length < s.length := by
  have hlen := (List.dropWhile_suffix (l := s) (· != c)).length_le
  unfold cut at h
  cases hdrop : s.dropWhile (· != c) with
  | nil =>
    rw [hdrop] at h
    cases h
  | cons b tail =>
    rw [hdrop] at h hlen
    obtain rfl := Option.some.inj (Prod.mk.inj h).2
    exact hlen

/-! ## The arguments of a URL -/

/-- What the arguments set, apart from the context. -/
structure UrlArgs where
  targetUser : Option CStr := none
  targetPasswd : Option CStr := none
  usn : Option CStr := none
  isIser : Bool := false
  deriving DecidableEq, Repr

/-- A field of the context is set. -/
def setContext (f : Context → Context) : UrlM Unit := do
  match ← get with
  | none => throw .nullDeref
  | some c => set (some (f c))

/-- The value of an argument, which the code reads. -/
def argValue : Option CStr → UrlM CStr
  | none => throw .nullDeref
  | some value => pure value

/-- The argument `auth`. -/
def authArg (value : Option CStr) : UrlM Unit := do
  let value ← argValue value
  if value = ofString "md5" then setContext fun c => { c with chapAuth := .md5 }
  else if value = ofString "sha1" then setContext fun c => { c with chapAuth := .sha1 }
  else if value = ofString "sha-256" then setContext fun c => { c with chapAuth := .sha256 }
  else if value = ofString "sha3-256" then setContext fun c => { c with chapAuth := .sha3256 }
  else throw (.error (snprintf (ofString "Invalid argument for auth: " ++ value)))

/-- An argument that sets a digest. -/
def digestArg (key : String) (value : Option CStr) (setDigest : Context → DigestMode → Context) :
    UrlM Unit := do
  let value ← argValue value
  if value = ofString "crc32c" then setContext fun c => setDigest c .crc32c
  else if value = ofString "none" then setContext fun c => setDigest c .none
  else throw (.error (snprintf (ofString s!"Invalid URL argument for {key}: " ++ value)))

/-- One argument. -/
def urlArg (args : UrlArgs) (key : CStr) (value : Option CStr) : UrlM UrlArgs := do
  if key = ofString "auth" then authArg value
  if key = ofString "header_digest" then digestArg "header_digest" value iscsiSetHeaderDigest
  if key = ofString "data_digest" then digestArg "data_digest" value iscsiSetDataDigest
  let args ←
    if key = ofString "target_user" then pure { args with targetUser := value }
    else if key = ofString "target_password" then pure { args with targetPasswd := value }
    else if key = ofString "iser" then pure { args with isIser := true }
    else if key = ofString "LIBISCSI_RDMA_ACK_TIMEOUT" then do
      let value ← argValue value
      setContext fun c => { c with rdmaAckTimeout := UInt8.ofInt (atoi value) }
      pure args
    else pure args
  pure (if key = ofString "force_usn" then { args with usn := value } else args)

/-- The loop over the arguments. Where the string has no NUL, what looks for its end reads on. -/
def urlArgs (terminated : Bool) (tmp : CStr) (args : UrlArgs) : UrlM UrlArgs :=
  if tmp = [] then
    if terminated then pure args else throw .unterminated
  else
    match _h : cut 0x26 tmp with
    | (arg, some next) => do
      let args ← urlArg args (cut 0x3d arg).1 (cut 0x3d arg).2
      urlArgs terminated next args
    | (arg, none) =>
      if terminated then urlArg args (cut 0x3d arg).1 (cut 0x3d arg).2 else throw .unterminated
termination_by tmp.length
decreasing_by exact length_cut _h

/-! ## The parser -/

/-- `ISCSI_URL_SYNTAX`. -/
def iscsiUrlSyntax : CStr :=
  ofString "\"iscsi://[<username>[%<password>]@]<host>[:<port>]/<target-iqn>/<lun>\""

/-- `ISCSI_PORTAL_URL_SYNTAX`. -/
def iscsiPortalUrlSyntax : CStr :=
  ofString "\"iscsi://[<username>[%<password>]@]<host>[:<port>]\""

/-- The error about a URL that is not of the form. -/
def urlSyntaxError (url : CStr) (what : String) (form : CStr) : UrlFailure :=
  .error (snprintf (ofString "Invalid URL " ++ url ++ ofString what ++ form))

/-- `str`, once what follows the scheme is copied to it, and whether it has a NUL. -/
def urlCopy (env : UrlEnv) (s : CStr) : CStr × Bool :=
  if s.length < maxStringSize then (s, true)
  else if env.stackByte = 0 then (strncpy s maxStringSize, true)
  else (strncpy s maxStringSize ++ [env.stackByte], false)

/-- The portal, the user and the password. The last two are those of the environment where the URL
has none. -/
def urlCredentials (env : UrlEnv) (portal : CStr) : CStr × Option CStr × Option CStr :=
  match cut 0x40 portal with
  | (_, none) => (portal, env.chapUsername, env.chapPassword)
  | (user, some portal) =>
    match cut 0x25 user with
    | (user, some passwd) => (portal, some user, some passwd)
    | (_, none) =>
      match cut 0x3a user with
      | (user, some passwd) => (portal, some user, some passwd)
      | (user, none) => (portal, some user, env.chapPassword)

/-- What follows the sign of a number. -/
def skipSign : CStr → CStr
  | 0x2d :: s => s
  | 0x2b :: s => s
  | s => s

/-- What `strtol(s, &tmp, 10)` leaves at `tmp`. -/
def strtolEnd (s : CStr) : CStr :=
  let digits := skipSign (s.dropWhile isSpaceByte)
  if digits.takeWhile isDigitByte = [] then s else digits.dropWhile isDigitByte

/-- The portal, the target and the LUN, which is a `long` that is stored in an `int`. -/
def urlTarget (url portal : CStr) : Except UrlFailure (CStr × CStr × Int) :=
  match cut 0x2f portal with
  | (_, none) => .error (urlSyntaxError url
      "\nCould not parse '<target-iqn>'\niSCSI URL must be of the form: " iscsiUrlSyntax)
  | (portal, some target) =>
    if target = [] then .error (urlSyntaxError url
      "\nCould not parse <target-iqn>\niSCSI URL must be of the form: " iscsiUrlSyntax)
    else
      match cut 0x2f target with
      | (_, none) => .error (urlSyntaxError url
          "\nCould not parse <lun>\niSCSI URL must be of the form: " iscsiUrlSyntax)
      | (target, some lun) =>
        if lun = [] ∨ strtolEnd lun ≠ [] then .error (urlSyntaxError url
          "\nCould not parse <lun>\niSCSI URL must be of the form: " iscsiUrlSyntax)
        else .ok (portal, target, (Int32.ofInt (strtol lun)).toInt)

/-- Whether both parts of the credentials are there. -/
def bothGiven : Option CStr → Option CStr → Option (CStr × CStr)
  | some user, some passwd => if user ≠ [] ∧ passwd ≠ [] then some (user, passwd) else none
  | _, _ => none

/-- The structure that is returned, with the buffer of the target when it is decoded. -/
def urlResult (args : UrlArgs) (portal : CStr) (target : List UInt8) (user passwd : Option CStr)
    (l : Int) : IscsiUrl :=
  let url : IscsiUrl :=
    { portal := strncpy portal maxStringSize
      target := first target
      lun := l
      isIser := args.isIser }
  match bothGiven user passwd with
  | none => url
  | some (user, passwd) =>
    let url := { url with user := strncpy user maxStringSize
                          passwd := strncpy passwd maxStringSize }
    match bothGiven args.targetUser args.targetPasswd with
    | none => url
    | some (user, passwd) =>
      { url with targetUser := strncpy user maxStringSize
                 targetPasswd := strncpy passwd maxStringSize }

/-- The context, if there is one, gets the settings of the URL. -/
def applyUrl (url : IscsiUrl) (usn : Option CStr) (c : Context) : Context :=
  let c := iscsiSetTargetname c url.target
  let c := iscsiSetInitiatorUsernamePwd c url.user url.passwd
  let c := iscsiSetTargetUsernamePwd c url.targetUser url.targetPasswd
  match usn with
  | none => c
  | some usn => iscsiSetUnitSerialNumber c usn

/-- `iscsi_parse_url`. -/
def iscsiParseUrl (env : UrlEnv) (url : CStr) (full : Bool) : UrlM IscsiUrl := do
  if !hasKey url "iscsi://" && !hasKey url "iser://" then
    if full then
      throw (urlSyntaxError url "\niSCSI URL must be of the form: " iscsiUrlSyntax)
    else
      throw (urlSyntaxError url "\niSCSI Portal URL must be of the form: " iscsiPortalUrlSyntax)
  let isIser := hasKey url "iser://"
  let (str, terminated) := urlCopy env (url.drop (if isIser then 7 else 8))
  let args : UrlArgs :=
    { targetUser := env.chapTargetUsername, targetPasswd := env.chapTargetPassword, isIser }
  let (portal, query) := cut 0x3f str
  let args ← match query with
    | none => if terminated then pure args else throw .unterminated
    | some query => urlArgs terminated query args
  let (portal, user, passwd) := urlCredentials env portal
  let (portal, target, l) ←
    if full then MonadExcept.ofExcept (urlTarget url portal) else pure ((cut 0x2f portal).1, [], 0)
  let target ← MonadExcept.ofExcept (iscsiDecodeUrlString (urlField target))
  let iscsiUrl := urlResult args portal target user passwd l
  modify (Option.map (applyUrl iscsiUrl args.usn))
  pure iscsiUrl

/-- `iscsi_parse_full_url`. -/
def iscsiParseFullUrl (env : UrlEnv) (url : CStr) : UrlM IscsiUrl := iscsiParseUrl env url true

/-- `iscsi_parse_portal_url`. -/
def iscsiParsePortalUrl (env : UrlEnv) (url : CStr) : UrlM IscsiUrl := iscsiParseUrl env url false

end Libiscsi
