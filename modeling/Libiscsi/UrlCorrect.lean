import Libiscsi.UrlDecode

/-!
# The round trip of URLs

A URL is built from its parts, with any of the target's bytes escaped, and `iscsi_parse_full_url`
gives the parts back exactly if (`urlRoundTrips_iff`) the URL leaves room for the NUL that `strncpy`
writes, a user has a password, and each escape of the target is followed by two bytes that are none.
-/

namespace Libiscsi

open CString

/-! ## Numbers -/

theorem decimal_natCast (n : Nat) :
    decimal (n : Int) = (Nat.toDigits 10 n).map fun c => UInt8.ofNat c.toNat := by
  unfold decimal ofString
  rw [← Nat.toList_repr]
  rfl

/-- A digit of a text. -/
theorem digit_byte {c : Char} (h : c.isDigit) :
    (UInt8.ofNat c.toNat).toNat = c.toNat ∧ isDigitByte (UInt8.ofNat c.toNat) = true := by
  obtain ⟨hlo, hhi⟩ : 48 ≤ c.toNat ∧ c.toNat ≤ 57 := by
    simpa [Char.isDigit, UInt32.le_iff_toNat_le] using h
  have htoNat : (UInt8.ofNat c.toNat).toNat = c.toNat := UInt8.toNat_ofNat_of_lt (by
    change c.toNat < 256
    omega)
  refine ⟨htoNat, ?_⟩
  unfold isDigitByte
  rw [Bool.and_eq_true, decide_eq_true_eq, decide_eq_true_eq, UInt8.le_iff_toNat_le,
    UInt8.le_iff_toNat_le, htoNat]
  exact ⟨hlo, hhi⟩

/-- The text of a number consists of digits. -/
theorem isDigitByte_decimal {n : Nat} {b : UInt8} (h : b ∈ decimal (n : Int)) :
    isDigitByte b = true := by
  rw [decimal_natCast] at h
  obtain ⟨c, hc, rfl⟩ := List.mem_map.1 h
  exact (digit_byte (Nat.isDigit_of_mem_toDigits (by decide) (by decide) hc)).2

theorem decimal_ne_nil (n : Nat) : decimal (n : Int) ≠ [] := by
  rw [decimal_natCast]
  exact fun h => Nat.toDigits_ne_nil (List.map_eq_nil_iff.1 h)

/-- Digits are none of the bytes with a meaning of their own. -/
theorem isDigitByte_spec {b : UInt8} (h : isDigitByte b = true) :
    b ≠ 0 ∧ b ∉ urlDelimiters ∧ isSpaceByte b = false ∧ b ≠ 0x2d ∧ b ≠ 0x2b := by
  have hall : ∀ k : Fin 256, isDigitByte (UInt8.ofNat k) = true → UInt8.ofNat k ≠ 0 ∧
      UInt8.ofNat k ∉ urlDelimiters ∧ isSpaceByte (UInt8.ofNat k) = false ∧
        UInt8.ofNat k ≠ 0x2d ∧ UInt8.ofNat k ≠ 0x2b := by
    decide +kernel
  have hb := hall ⟨b.toNat, b.toNat_lt⟩
  rw [UInt8.ofNat_toNat] at hb
  exact hb h

/-- The value of the digits, from the left. -/
theorem foldl_digits : ∀ {l : List Char} {init : Nat}, (∀ c ∈ l, c.isDigit) →
    (l.map fun c => UInt8.ofNat c.toNat).foldl (fun n b => 10 * n + (b.toNat - 48)) init =
      Nat.ofDigitChars 10 l init
  | [], _, _ => rfl
  | c :: l, init, h => by
    rw [List.map_cons, List.foldl_cons, Nat.ofDigitChars_cons,
      (digit_byte (h c List.mem_cons_self)).1]
    exact foldl_digits fun c hc => h c (List.mem_cons_of_mem _ hc)

/-- The text of a number has the number as its value. -/
theorem decimalValue_decimal (n : Nat) : decimalValue (decimal (n : Int)) = n := by
  unfold decimalValue
  rw [List.takeWhile_eq_self_iff.2 fun b hb => isDigitByte_decimal hb, decimal_natCast,
    foldl_digits fun c hc => Nat.isDigit_of_mem_toDigits (by decide) (by decide) hc,
    Nat.ofDigitChars_ten_toDigits]

/-- `strtol` reads a number that was printed, and reads all of it. -/
theorem strtol_decimal {n : Nat} (h : n < 2 ^ 31) :
    (Int32.ofInt (strtol (decimal (n : Int)))).toInt = n ∧ strtolEnd (decimal (n : Int)) = [] := by
  have hvalue := decimalValue_decimal n
  have hdigits : ∀ b ∈ decimal (n : Int), isDigitByte b = true := fun b hb =>
    isDigitByte_decimal hb
  unfold strtol strtolEnd
  cases hs : decimal (n : Int) with
  | nil => exact absurd hs (decimal_ne_nil n)
  | cons b s =>
    rw [hs] at hvalue hdigits
    obtain ⟨-, -, hspace, hminus, hplus⟩ := isDigitByte_spec (hdigits b List.mem_cons_self)
    have hdrop : (b :: s).dropWhile isSpaceByte = b :: s :=
      List.dropWhile_cons_of_neg (by rw [hspace]; exact Bool.false_ne_true)
    have hall : (b :: s).dropWhile isDigitByte = [] := List.dropWhile_eq_nil_iff.2 hdigits
    rw [hdrop]
    constructor
    · split
      · rename_i heq
        exact absurd (List.cons.inj heq).1 hminus
      · rename_i heq
        exact absurd (List.cons.inj heq).1 hplus
      · rw [hvalue, min_eq_left (by omega)]
        exact Int32.toInt_ofInt_of_le (by omega) (by omega)
    · have hsign : skipSign (b :: s) = b :: s := by
        unfold skipSign
        split
        · rename_i heq
          exact absurd (List.cons.inj heq).1 hminus
        · rename_i heq
          exact absurd (List.cons.inj heq).1 hplus
        · rfl
      simp only [hsign]
      rw [List.takeWhile_eq_self_iff.2 hdigits, if_neg (List.cons_ne_nil b s), hall]

/-! ## Cuts -/

/-- A string without the byte is not cut. -/
theorem cut_of_notMem {c : UInt8} {s : CStr} (h : c ∉ s) : cut c s = (s, none) := by
  unfold cut
  have hall : ∀ b ∈ s, (b != c) = true := fun b hb => bne_iff_ne.2 fun heq => h (heq ▸ hb)
  rw [List.dropWhile_eq_nil_iff.2 hall]

/-- A string is cut at the first such byte. -/
theorem cut_append {c : UInt8} {s : CStr} (h : c ∉ s) (rest : CStr) :
    cut c (s ++ c :: rest) = (s, some rest) := by
  have hall : ∀ b ∈ s, (b != c) = true := fun b hb => bne_iff_ne.2 fun heq => h (heq ▸ hb)
  unfold cut
  rw [List.dropWhile_append_of_pos hall, List.takeWhile_append_of_pos hall,
    List.dropWhile_cons_of_neg (by simp), List.takeWhile_cons_of_neg (by simp), List.append_nil]

/-! ## The parts of a URL -/

/-- The parts of a URL, without the bytes that would end them. A user or a password that is not
there is empty. -/
structure UrlParts where
  user : CStr
  passwd : CStr
  portal : CStr
  target : List TargetByte
  lun : Nat
  user_ok : ∀ b ∈ user, b ≠ 0 ∧ b ≠ 0x25 ∧ b ∉ [0x3f, 0x40]
  passwd_ok : ∀ b ∈ passwd, b ≠ 0 ∧ b ∉ [0x3f, 0x40]
  /-- There is no password without a user. -/
  passwd_nil : user = [] → passwd = []
  portal_ok : ∀ b ∈ portal, b ≠ 0 ∧ b ∉ urlDelimiters
  target_ne : target ≠ []
  lun_lt : lun < 2 ^ 31

namespace UrlParts
variable (p : UrlParts)

/-- `[<username>[%<password>]@]`. -/
def credentials : CStr :=
  if p.user = [] then []
  else p.user ++ ((if p.passwd = [] then [] else 0x25 :: p.passwd) ++ [0x40])

/-- `<host>[:<port>]/<target-iqn>/<lun>`. -/
def path : CStr :=
  p.portal ++ 0x2f :: (TargetByte.encodeTarget p.target ++ 0x2f :: decimal (p.lun : Int))

/-- What follows the scheme. -/
def text : CStr := p.credentials ++ p.path

/-- The URL. -/
def url : CStr := ofString "iscsi://" ++ p.text

/-- The parts as the parser should return them. -/
def expected : IscsiUrl :=
  { portal := p.portal
    target := p.target.map TargetByte.byte
    user := p.user
    passwd := p.passwd
    lun := p.lun }

end UrlParts

/-- A URL that fits the buffer, which has a byte more than `MAX_STRING_SIZE` for the NUL. -/
structure FittingUrl extends UrlParts where
  fits : toUrlParts.text.length ≤ maxStringSize

/-- Without the environment variables, the parser returns the parts of the URL, whatever the stack
and the context are. -/
def FittingUrl.RoundTrips (p : FittingUrl) : Prop :=
  ∀ (stackByte : UInt8) (iscsi : Option Context), ∃ iscsi',
    iscsiParseFullUrl { stackByte } p.url iscsi = .ok p.expected iscsi'

/-! ## The bytes of the parts -/

namespace TargetByte

/-- A target in a URL has no NUL in it and no byte that would end it. -/
theorem mem_encodeTarget {t : List TargetByte} {b : UInt8} (h : b ∈ encodeTarget t) :
    b ≠ 0 ∧ b ∉ urlDelimiters := by
  obtain ⟨x, -, hx⟩ := List.mem_flatMap.1 h
  obtain ⟨c, spelling, hc, hplain⟩ := x
  obtain ⟨hhi, hlo, -⟩ := nibbles c
  cases spelling with
  | plain =>
    obtain rfl := List.mem_singleton.1 hx
    exact ⟨hc, (hplain rfl).2⟩
  | escaped u v =>
    have hhi := (hexDigit_spec u hhi).2
    have hlo := (hexDigit_spec v hlo).2
    rcases List.mem_cons.1 hx with rfl | hx
    · decide
    rcases List.mem_cons.1 hx with rfl | hx
    · exact ⟨hhi.1, hhi.2.2⟩
    obtain rfl := List.mem_singleton.1 hx
    exact ⟨hlo.1, hlo.2.2⟩

end TargetByte

namespace UrlParts
variable {p : UrlParts}

/-- The target and the LUN are found in what follows the credentials. -/
theorem urlTarget_path (url : CStr) :
    urlTarget url p.path = .ok (p.portal, TargetByte.encodeTarget p.target, p.lun) := by
  have hslash : (0x2f : UInt8) ∈ urlDelimiters := by decide
  have hportal : (0x2f : UInt8) ∉ p.portal := fun h => (p.portal_ok _ h).2 hslash
  have htarget : (0x2f : UInt8) ∉ TargetByte.encodeTarget p.target := fun h =>
    (TargetByte.mem_encodeTarget h).2 hslash
  obtain ⟨hlun, hend⟩ := strtol_decimal p.lun_lt
  unfold urlTarget path
  rw [cut_append hportal]
  simp only
  rw [if_neg (by simp), cut_append htarget]
  simp only
  rw [if_neg (by rw [hend]; simp [decimal_ne_nil]), hlun]

/-- No part has one of the bytes that come before it in it. -/
theorem notMem_path {b : UInt8} (h : b ∈ [0x3f, 0x40]) : b ∉ p.path := by
  have hdelim : b ∈ urlDelimiters := List.mem_cons_of_mem _ h
  have hne : b ≠ 0x2f := by
    rintro rfl
    exact absurd h (by decide)
  unfold path
  rw [List.mem_append, List.mem_cons, List.mem_append, List.mem_cons]
  rintro (hmem | rfl | hmem | rfl | hmem)
  · exact (p.portal_ok b hmem).2 hdelim
  · exact hne rfl
  · exact (TargetByte.mem_encodeTarget hmem).2 hdelim
  · exact hne rfl
  · exact (isDigitByte_spec (isDigitByte_decimal hmem)).2.1 hdelim

/-- There are no arguments. -/
theorem question_notMem_text : (0x3f : UInt8) ∉ p.text := by
  have hpath : (0x3f : UInt8) ∉ p.path := notMem_path (by decide)
  have huser : (0x3f : UInt8) ∉ p.user := fun h => (p.user_ok _ h).2.2 (by decide)
  have hpasswd : (0x3f : UInt8) ∉ p.passwd := fun h => (p.passwd_ok _ h).2 (by decide)
  unfold text credentials
  split
  · simpa using hpath
  split <;> simp [hpath, huser, hpasswd]

/-- The credentials are cut off. -/
theorem urlCredentials_text (stackByte : UInt8) :
    (urlCredentials { stackByte } p.text).1 = p.path ∧
      (p.user = [] → (urlCredentials { stackByte } p.text).2 = (none, none)) ∧
      (p.user ≠ [] → p.passwd ≠ [] →
        (urlCredentials { stackByte } p.text).2 = (some p.user, some p.passwd)) := by
  have hpath : (0x40 : UInt8) ∉ p.path := notMem_path (by decide)
  have huser : (0x40 : UInt8) ∉ p.user := fun h => (p.user_ok _ h).2.2 (by decide)
  have hpercent : (0x25 : UInt8) ∉ p.user := fun h => (p.user_ok _ h).2.1 rfl
  have hpasswd : (0x40 : UInt8) ∉ p.passwd := fun h => (p.passwd_ok _ h).2 (by decide)
  unfold urlCredentials text credentials
  by_cases hu : p.user = []
  · rw [if_pos hu, List.nil_append, cut_of_notMem hpath]
    exact ⟨rfl, fun _ => rfl, fun hne => absurd hu hne⟩
  by_cases hp : p.passwd = []
  · have hcut := cut_append huser p.path
    rw [if_neg hu, if_pos hp, List.nil_append, List.append_assoc, List.singleton_append, hcut]
    simp only
    rw [cut_of_notMem hpercent]
    simp only
    refine ⟨?_, fun h => absurd h hu, fun _ h => absurd hp h⟩
    split <;> rfl
  · have hcut := cut_append (c := 0x40) (s := p.user ++ 0x25 :: p.passwd)
      (by simp [huser, hpasswd]) p.path
    rw [if_neg hu, if_neg hp, List.append_assoc, List.append_assoc, List.singleton_append,
      ← List.append_assoc, hcut]
    simp only
    rw [cut_append hpercent]
    exact ⟨rfl, fun h => absurd h hu, fun _ _ => rfl⟩

end UrlParts

/-! ## The result -/

/-- A field is decoded within its buffer. -/
theorem iscsiDecodeUrlString_urlField {s : CStr} (h : 0 ∉ s) (hlen : s.length ≤ maxStringSize) :
    ∃ post, iscsiDecodeUrlString (urlField s) = .ok (decoded s ++ 0 :: post) := by
  have hfield : urlField s = s ++ 0 :: List.replicate (maxStringSize - s.length) 0 := by
    unfold urlField strncpy
    rw [List.take_of_length_le hlen, Nat.succ_sub hlen, List.replicate_succ]
  obtain ⟨post, hloop⟩ := @decodeLoop_eq (urlField s).length s []
    (List.replicate (maxStringSize - s.length) 0) h
    (by rw [hfield, List.length_append, List.length_cons]; omega)
  rw [List.nil_append, List.nil_append, ← hfield] at hloop
  exact ⟨post, hloop⟩

/-- The string of a field that is decoded. -/
theorem first_decode {s : CStr} (h : 0 ∉ s) (hlen : s.length ≤ maxStringSize)
    (hdecoded : 0 ∉ decoded s) :
    ∃ buf, iscsiDecodeUrlString (urlField s) = .ok buf ∧ first buf = decoded s := by
  obtain ⟨post, hbuf⟩ := iscsiDecodeUrlString_urlField h hlen
  exact ⟨_, hbuf, first_append hdecoded post⟩

/-- The target is the string in its buffer, whatever the credentials are. -/
theorem urlResult_target (args : UrlArgs) (portal : CStr) (buf : List UInt8)
    (user passwd : Option CStr) (l : Int) :
    (urlResult args portal buf user passwd l).target = first buf := by
  unfold urlResult
  cases bothGiven user passwd with
  | none => rfl
  | some pair => cases bothGiven args.targetUser args.targetPasswd <;> rfl

/-- There is no user without a password. -/
theorem urlResult_credentials (args : UrlArgs) (portal : CStr) (buf : List UInt8)
    (user passwd : Option CStr) (l : Int) : (urlResult args portal buf user passwd l).user = [] ∨
      (urlResult args portal buf user passwd l).passwd ≠ [] := by
  unfold urlResult
  cases hgiven : bothGiven user passwd with
  | none => exact .inl rfl
  | some pair =>
    obtain ⟨u, q⟩ := pair
    have hq : q ≠ [] := by
      cases user with
      | none => cases hgiven
      | some user =>
        cases passwd with
        | none => cases hgiven
        | some passwd =>
          unfold bothGiven at hgiven
          simp only at hgiven
          split at hgiven
          · rename_i hne
            obtain ⟨rfl, rfl⟩ := Prod.mk.inj (Option.some.inj hgiven)
            exact hne.2
          · cases hgiven
    have hcopy : strncpy q maxStringSize ≠ [] := by
      unfold strncpy
      rw [Ne, List.take_eq_nil_iff]
      rintro (h | h)
      · exact absurd h (by decide)
      · exact hq h
    right
    simp only
    split <;> exact hcopy

theorem ofExcept_ok_bind {α β : Type} (a : α) (f : α → UrlM β) :
    ((MonadExcept.ofExcept (Except.ok a : Except UrlFailure α) : UrlM α) >>= f) = f a := rfl

namespace UrlParts
variable {p : UrlParts}

/-- The scheme of a URL is `iscsi`. -/
theorem url_scheme (p : UrlParts) : hasKey p.url "iscsi://" = true ∧
    hasKey p.url "iser://" = false ∧ p.url.drop 8 = p.text := by
  refine ⟨?_, rfl, rfl⟩
  unfold hasKey
  rw [List.isPrefixOf_iff_prefix]
  exact List.prefix_append ..

/-- The target of a URL that fits is decoded within its buffer. -/
theorem decode_target (hlen : p.text.length ≤ maxStringSize) :
    ∃ buf, iscsiDecodeUrlString (urlField (TargetByte.encodeTarget p.target)) = .ok buf ∧
      first buf = decoded (TargetByte.encodeTarget p.target) := by
  have htarget : (TargetByte.encodeTarget p.target).length ≤ p.text.length := by
    unfold text path
    rw [List.length_append, List.length_append, List.length_cons, List.length_append]
    omega
  exact first_decode (fun h => (TargetByte.mem_encodeTarget h).1 rfl) (by omega)
    (TargetByte.decoded_encodeTarget p.target).1

/-- The parser of a URL that leaves room for the NUL. -/
theorem iscsiParseFullUrl_url {buf : List UInt8} (hlen : p.text.length < maxStringSize)
    (hbuf : iscsiDecodeUrlString (urlField (TargetByte.encodeTarget p.target)) = .ok buf)
    (stackByte : UInt8) (iscsi : Option Context) :
    ∃ iscsi', iscsiParseFullUrl { stackByte } p.url iscsi =
      .ok (urlResult {} p.portal buf (urlCredentials { stackByte } p.text).2.1
        (urlCredentials { stackByte } p.text).2.2 p.lun) iscsi' := by
  obtain ⟨hscheme, hiser, hdrop⟩ := p.url_scheme
  have hcopy : urlCopy { stackByte } p.text = (p.text, true) := if_pos hlen
  have hcut := cut_of_notMem (question_notMem_text (p := p))
  have htarget := urlTarget_path (p := p) p.url
  rw [← (urlCredentials_text stackByte).1] at htarget
  unfold iscsiParseFullUrl iscsiParseUrl
  simp only [hscheme, hiser, Bool.not_true, Bool.false_and, Bool.false_eq_true, if_false, hdrop,
    hcopy, hcut, if_true, pure_bind, htarget, ofExcept_ok_bind, hbuf]
  exact ⟨_, rfl⟩

/-- The parser of a URL whose last byte takes the room of the NUL, where the stack has no NUL. -/
theorem iscsiParseFullUrl_full (hlen : maxStringSize ≤ p.text.length) (iscsi : Option Context) :
    iscsiParseFullUrl { stackByte := 1 } p.url iscsi = .error .unterminated iscsi := by
  obtain ⟨hscheme, hiser, hdrop⟩ := p.url_scheme
  have hcopy : urlCopy { stackByte := 1 } p.text =
      (strncpy p.text maxStringSize ++ [1], false) := by
    unfold urlCopy
    rw [if_neg (Nat.not_lt.2 hlen), if_neg (by decide)]
  have hquestion : (0x3f : UInt8) ∉ strncpy p.text maxStringSize ++ [1] := by
    rw [List.mem_append, List.mem_singleton]
    rintro (h | h)
    · exact question_notMem_text (List.mem_of_mem_take h)
    · exact absurd h (by decide)
  unfold iscsiParseFullUrl iscsiParseUrl
  simp only [hscheme, hiser, Bool.not_true, Bool.false_and, Bool.false_eq_true, if_false, hdrop,
    hcopy, cut_of_notMem hquestion]
  rfl

/-- What is returned is what is expected exactly if a user has a password and the escapes of the
target are decoded. -/
theorem urlResult_eq_iff {buf : List UInt8} (hlen : p.text.length ≤ maxStringSize)
    (hbuf : first buf = decoded (TargetByte.encodeTarget p.target)) (stackByte : UInt8) :
    urlResult {} p.portal buf (urlCredentials { stackByte } p.text).2.1
        (urlCredentials { stackByte } p.text).2.2 p.lun = p.expected ↔
      (p.user = [] ∨ p.passwd ≠ []) ∧ TargetByte.Spaced p.target := by
  obtain ⟨-, hnone, hboth⟩ := p.urlCredentials_text stackByte
  have hpath : p.credentials.length + p.path.length ≤ maxStringSize := by
    rw [← List.length_append]
    exact hlen
  have hparts : p.portal.length ≤ p.path.length := by
    unfold path
    rw [List.length_append]
    omega
  obtain ⟨-, -, hdecoded⟩ := TargetByte.decoded_encodeTarget p.target
  have hportal : strncpy p.portal maxStringSize = p.portal := List.take_of_length_le (by omega)
  rw [← hdecoded]
  by_cases hu : p.user = []
  · rw [hnone hu]
    have hp := p.passwd_nil hu
    unfold urlResult expected
    simp only [bothGiven, hbuf, hportal, hu, hp, IscsiUrl.mk.injEq, true_or, true_and, and_true]
  by_cases hp : p.passwd = []
  · refine iff_of_false (fun heq => ?_) fun h => h.1.elim hu fun hne => hne hp
    rcases urlResult_credentials {} p.portal buf
      (urlCredentials { stackByte } p.text).2.1 (urlCredentials { stackByte } p.text).2.2 p.lun with
      huser | hpasswd
    · exact hu ((congrArg IscsiUrl.user heq).symm.trans huser)
    · exact hpasswd ((congrArg IscsiUrl.passwd heq).trans hp)
  · rw [hboth hu hp]
    have hlens : p.user.length ≤ p.credentials.length ∧ p.passwd.length ≤ p.credentials.length := by
      unfold credentials
      rw [if_neg hu, if_neg hp]
      simp only [List.length_append, List.length_cons]
      exact ⟨by omega, by omega⟩
    have huser : strncpy p.user maxStringSize = p.user := List.take_of_length_le (by omega)
    have hpasswd : strncpy p.passwd maxStringSize = p.passwd := List.take_of_length_le (by omega)
    unfold urlResult expected
    simp only [bothGiven, hbuf, hportal, huser, hpasswd, hu, hp, ne_eq, not_false_eq_true,
      and_self, if_true, IscsiUrl.mk.injEq, or_true, true_and, and_true]

end UrlParts

/-- **The parser gives the parts of a URL back exactly if the URL leaves room for the NUL that
`strncpy` writes, a user has a password, and each escape of the target is followed by two bytes that
are none, or by the end of the target.** -/
theorem urlRoundTrips_iff (p : FittingUrl) : p.RoundTrips ↔
    p.text.length < maxStringSize ∧ (p.user = [] ∨ p.passwd ≠ []) ∧
      TargetByte.Spaced p.target := by
  obtain ⟨buf, hbuf, hfirst⟩ := UrlParts.decode_target p.fits
  constructor
  · intro h
    have hlen : p.text.length < maxStringSize := by
      by_contra hfull
      obtain ⟨iscsi', heq⟩ := h 1 none
      rw [UrlParts.iscsiParseFullUrl_full (Nat.not_lt.1 hfull)] at heq
      cases heq
    obtain ⟨iscsi', heq⟩ := h 0 none
    obtain ⟨iscsi'', hrun⟩ := UrlParts.iscsiParseFullUrl_url hlen hbuf 0 none
    rw [hrun] at heq
    exact ⟨hlen, (UrlParts.urlResult_eq_iff p.fits hfirst 0).1 (EStateM.Result.ok.inj heq).1⟩
  · rintro ⟨hlen, hparts⟩ stackByte iscsi
    obtain ⟨iscsi', hrun⟩ := UrlParts.iscsiParseFullUrl_url hlen hbuf stackByte iscsi
    rw [(UrlParts.urlResult_eq_iff p.fits hfirst stackByte).2 hparts] at hrun
    exact ⟨iscsi', hrun⟩

/-! ## Escapes that are not decoded -/

/-- The colons of a name, escaped. -/
def colon : TargetByte := ⟨0x3a, .escaped true true, by decide, fun h => by cases h⟩

theorem decimal_zero : decimal ((0 : Nat) : Int) = [0x30] := by
  rw [decimal_natCast, Nat.toDigits_zero]
  rfl

/-- `iscsi://h/%3A%3A/0`. -/
def colonsUrl : FittingUrl where
  user := []
  passwd := []
  portal := [0x68]
  target := [colon, colon]
  lun := 0
  user_ok := List.forall_mem_nil _
  passwd_ok := List.forall_mem_nil _
  passwd_nil _ := rfl
  portal_ok := List.forall_mem_singleton.2 (by decide)
  target_ne := List.cons_ne_nil _ _
  lun_lt := by decide
  fits := by
    change ([0x68] ++ 0x2f :: (TargetByte.encodeTarget [colon, colon] ++
      0x2f :: decimal ((0 : Nat) : Int))).length ≤ maxStringSize
    rw [decimal_zero]
    decide

/-- Of two escapes that follow each other, the second is not decoded: the target `:%3A` is returned
for `::`. -/
theorem colons_notDecoded : ¬∀ p : FittingUrl, p.RoundTrips := by
  intro h
  obtain ⟨iscsi', heq⟩ := h colonsUrl 0 none
  have hlen : colonsUrl.text.length < maxStringSize := by
    change ([0x68] ++ 0x2f :: (TargetByte.encodeTarget [colon, colon] ++
      0x2f :: decimal ((0 : Nat) : Int))).length < maxStringSize
    rw [decimal_zero]
    decide
  obtain ⟨buf, hbuf, hfirst⟩ := UrlParts.decode_target colonsUrl.fits
  obtain ⟨iscsi'', hrun⟩ := UrlParts.iscsiParseFullUrl_url hlen hbuf 0 none
  have hnone : (urlCredentials { stackByte := 0 } colonsUrl.text).2 = (none, none) :=
    (UrlParts.urlCredentials_text 0).2.1 rfl
  have htarget : first buf = [0x3a, 0x25, 0x33, 0x41] := hfirst.trans (by decide)
  rw [hrun, hnone] at heq
  have hresult := congrArg IscsiUrl.target (EStateM.Result.ok.inj heq).1
  rw [urlResult_target, htarget] at hresult
  exact absurd (congrArg List.length hresult) (by decide)

end Libiscsi
