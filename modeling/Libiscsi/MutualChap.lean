import Libiscsi.LoginRun

/-!
# Mutual CHAP

A target that has to authenticate itself gets a challenge with the response to its own, and the
digest that it has to answer with is kept in the context. The code compares each name and each
response that a reply carries, but it insists on them only in a reply that says that it ends the
security negotiation. A login that succeeds has authenticated the target if and only if some reply
after the challenge carried both (`mutual_chap_iff`).
-/

namespace Libiscsi

open CString

/-! ## Challenges -/

/-- The digest of the last challenge, after a Login Request was made. -/
def nextDigest (env : LoginEnv) (c : Context) (digest : Option (List UInt8)) :
    Option (List UInt8) :=
  if (c.requesting env).challenges then some ((c.requesting env).expectedDigest env) else digest

/-- A reply that was received, with the context then and the digest of the last challenge that was
sent, if one was. -/
structure ChapStep where
  c : Context
  reply : InPdu
  digest : Option (List UInt8)

/-- A login on one connection, from the context and the digest of the last challenge. -/
inductive ChapLogin : Context → Option (List UInt8) → List ChapStep → Context → Prop where
  | final {c c' : Context} {digest : Option (List UInt8)} {q : InPdu}
      (h : receiveLogin c q = (c', .callback scsiStatusGood 0)) :
      ChapLogin c digest [⟨c, q, digest⟩] c'
  | next {env : LoginEnv} {c c₁ c₂ c' : Context} {digest : Option (List UInt8)} {q : InPdu}
      {r : LoginRequest} {steps : List ChapStep} (hreply : receiveLogin c q = (c₁, .login))
      (hasync : iscsiLoginAsync env c₁ = (c₂, some r))
      (hrest : ChapLogin c₂ (nextDigest env c₁ digest) steps c') :
      ChapLogin c digest (⟨c, q, digest⟩ :: steps) c'

/-- A reply carries the name of the target and the digest of the challenge that was sent before. -/
def ChapStep.Authenticates (x : ChapStep) : Prop :=
  ∃ digest, x.digest = some digest ∧
    (∃ s ∈ x.reply.strings, hasKey s "CHAP_N=" ∧ s.drop 7 = x.c.targetUser) ∧
    ∃ s ∈ x.reply.strings, hasKey s "CHAP_R=0x" ∧
      s.length = 9 + 2 * x.c.chapAuth.responseSize ∧
      receivedChapR s x.c.chapAuth.responseSize = digest.take x.c.chapAuth.responseSize

/-- A reply after a challenge that carries a name and a response, whatever they are. -/
def ChapStep.Answers (x : ChapStep) : Prop :=
  x.digest.isSome ∧ (∃ s ∈ x.reply.strings, hasKey s "CHAP_N=") ∧
    ∃ s ∈ x.reply.strings, hasKey s "CHAP_R=0x"

/-- A login, from its first Login Request. -/
def MutualLogin (c : Context) (steps : List ChapStep) (c' : Context) : Prop :=
  ∃ env c₁ r, iscsiLoginAsync env c = (c₁, some r) ∧ ChapLogin c₁ (nextDigest env c none) steps c'

/-! ## What is compared -/

/-- What the target has to show, and how much of it. -/
structure TargetSecret where
  targetUser : CStr
  targetChapR : List UInt8
  chapAuth : ChapAuth

/-- What the target has to show in a context. -/
def Context.secret (c : Context) : TargetSecret where
  targetUser := c.targetUser
  targetChapR := c.targetChapR
  chapAuth := c.chapAuth

/-- A string that is right about the target, if it is about the target at all. -/
structure RightAbout (secret : TargetSecret) (s : CStr) : Prop where
  name : hasKey s "CHAP_N=" = true → s.drop 7 = secret.targetUser
  response : hasKey s "CHAP_R=0x" = true → s.length = 9 + 2 * secret.chapAuth.responseSize ∧
    receivedChapR s secret.chapAuth.responseSize =
      secret.targetChapR.take secret.chapAuth.responseSize

/-- A string does not change what the target has to show. -/
theorem secret_stringContext (c : Context) (s : CStr) : (stringContext c s).secret = c.secret := by
  unfold stringContext
  rw [chapKey_keeps Context.secret fun _ _ _ _ _ => rfl,
    loginKey_keeps Context.secret fun _ _ _ _ _ _ _ _ _ _ _ => rfl]

/-- A string that is accepted is right about the target. What is still missing was missing before,
and is not in the string. -/
theorem loginString_right {st st' : LoginParse} {s : CStr} (h : loginString st s = .ok st') :
    RightAbout st.c.secret s ∧
      (st'.mustHaveChapN = false → st.mustHaveChapN = false ∨ hasKey s "CHAP_N=" = true) ∧
      (st'.mustHaveChapR = false → st.mustHaveChapR = false ∨ hasKey s "CHAP_R=0x" = true) := by
  unfold loginString loginChapKey at h
  dsimp only at h
  split at h
  · cases h
  obtain ⟨st₁, h₁, h₂⟩ := Outcome.bind_eq_ok.1 h
  have hsecret : (chapCKey (chapPhaseKey (loginKey st.c s) s) s).secret = st.c.secret :=
    secret_stringContext st.c s
  have hname : st₁.c.secret = st.c.secret ∧ st₁.mustHaveChapR = st.mustHaveChapR ∧
      (hasKey s "CHAP_N=" = true → s.drop 7 = st.c.targetUser) ∧
      (st₁.mustHaveChapN = false → st.mustHaveChapN = false ∨ hasKey s "CHAP_N=" = true) := by
    unfold chapNKey at h₁
    split at h₁
    · rename_i hkey
      split at h₁
      · cases h₁
      · rename_i heq
        obtain rfl := Except.ok.inj h₁
        refine ⟨hsecret, rfl, fun _ => ?_, fun _ => .inr hkey⟩
        exact (not_not.1 heq).symm.trans (congrArg TargetSecret.targetUser hsecret)
    · rename_i hkey
      obtain rfl := Except.ok.inj h₁
      exact ⟨hsecret, rfl, fun h => absurd h hkey, .inl⟩
  obtain ⟨hsecret₁, hmust, hn, hmissing⟩ := hname
  unfold chapRKey at h₂
  dsimp only at h₂
  split at h₂
  · rename_i hkey
    split at h₂
    · cases h₂
    rename_i hlen
    split at h₂
    · cases h₂
    rename_i heq
    obtain rfl := Except.ok.inj h₂
    refine ⟨⟨hn, fun _ => ?_⟩, hmissing, fun _ => .inr hkey⟩
    rw [← hsecret₁]
    exact ⟨not_not.1 hlen, not_not.1 heq⟩
  · rename_i hkey
    obtain rfl := Except.ok.inj h₂
    exact ⟨⟨hn, fun h => absurd h hkey⟩, hmissing, fun h => .inl (hmust ▸ h)⟩

/-- So are the strings of a reply. -/
theorem foldlM_loginString_right : ∀ {strings : List CStr} {st st' : LoginParse},
    strings.foldlM loginString st = .ok st' →
      (∀ s ∈ strings, RightAbout st.c.secret s) ∧
      (st'.mustHaveChapN = false →
        st.mustHaveChapN = false ∨ ∃ s ∈ strings, hasKey s "CHAP_N=" = true) ∧
      (st'.mustHaveChapR = false →
        st.mustHaveChapR = false ∨ ∃ s ∈ strings, hasKey s "CHAP_R=0x" = true)
  | [], _, _, h => by
    obtain rfl := Outcome.pure_eq_ok.1 h
    exact ⟨List.forall_mem_nil _, .inl, .inl⟩
  | s :: strings, st, st', h => by
    rw [List.foldlM_cons] at h
    obtain ⟨st₁, h₁, h₂⟩ := Outcome.bind_eq_ok.1 h
    obtain ⟨hright, hname, hresponse⟩ := loginString_right h₁
    obtain ⟨hrights, hnames, hresponses⟩ := foldlM_loginString_right h₂
    have hsecret : st₁.c.secret = st.c.secret := by
      rw [loginString_c h₁, secret_stringContext]
    refine ⟨List.forall_mem_cons.2 ⟨hright, hsecret ▸ hrights⟩, fun hn => ?_, fun hr => ?_⟩
    · rcases hnames hn with hn | ⟨s', hs', hkey⟩
      · exact (hname hn).imp_right fun hkey => ⟨s, List.mem_cons_self, hkey⟩
      · exact .inr ⟨s', List.mem_cons_of_mem s hs', hkey⟩
    · rcases hresponses hr with hr | ⟨s', hs', hkey⟩
      · exact (hresponse hr).imp_right fun hkey => ⟨s, List.mem_cons_self, hkey⟩
      · exact .inr ⟨s', List.mem_cons_of_mem s hs', hkey⟩

/-! ## One reply -/

section
variable {c c' : Context} {q : InPdu} {a : LoginAction} {digest : Option (List UInt8)}

/-- A reply with which the login goes on or succeeds: its strings are right about the target, which
has shown what it must, and what the target has to show stays the same. -/
theorem receiveLogin_right (h : receiveLogin c q = (c', a))
    (ha : a = .login ∨ a = .callback scsiStatusGood 0) :
    (∀ s ∈ q.strings, RightAbout c.secret s) ∧ c'.secret = c.secret ∧
      (mustAuthenticate c q = true → (∃ s ∈ q.strings, hasKey s "CHAP_N=" = true) ∧
        ∃ s ∈ q.strings, hasKey s "CHAP_R=0x" = true) := by
  obtain ⟨st, hparse, hcase⟩ := iscsiProcessLoginReply_ok h
    (by rcases ha with rfl | rfl <;> decide) (by rcases ha with rfl | rfl <;> decide)
  have hstart : ((iscsiProcessPduSerials c q).takeStatsn q).secret = c.secret := by
    unfold Context.takeStatsn iscsiProcessPduSerials
    split <;> split <;> rfl
  have hmust : mustAuthenticate ((iscsiProcessPduSerials c q).takeStatsn q) q =
      mustAuthenticate c q := by
    unfold mustAuthenticate
    rw [show ((iscsiProcessPduSerials c q).takeStatsn q).targetUser = c.targetUser from
      congrArg TargetSecret.targetUser hstart]
  have hfold := parseLogin_ok hparse
  obtain ⟨hrights, hnames, hresponses⟩ := foldlM_loginString_right hfold
  have hst : st.c.secret = c.secret := by
    rw [foldlM_loginString_c hfold, foldl_stringContext_keeps Context.secret secret_stringContext,
      hstart]
  have hadvance : (st.c.advance q).secret = st.c.secret := by
    unfold Context.advance
    split <;> rfl
  refine ⟨hstart ▸ hrights, ?_, fun hauth => ?_⟩
  · rcases hcase with ⟨rfl, -, -⟩ | ⟨-, -, ⟨-, -, rfl⟩ | ⟨-, rfl⟩⟩
    · rcases ha with ha | ha <;> cases ha
    · exact hadvance.trans hst
    · exact hadvance.trans hst
  · rcases hcase with ⟨rfl, -, -⟩ | ⟨-, ⟨hn, hr⟩, -⟩
    · rcases ha with ha | ha <;> cases ha
    · rw [hmust, hauth] at hnames hresponses
      exact ⟨(hnames hn).resolve_left Bool.noConfusion,
        (hresponses hr).resolve_left Bool.noConfusion⟩

/-- A reply that answers authenticates the target, when the digest in the context is that of the
last challenge. -/
theorem ChapStep.Answers.authenticates (h : receiveLogin c q = (c', a))
    (ha : a = .login ∨ a = .callback scsiStatusGood 0)
    (hdigest : ∀ d, digest = some d → c.targetChapR = d)
    (hx : ChapStep.Answers ⟨c, q, digest⟩) : ChapStep.Authenticates ⟨c, q, digest⟩ := by
  obtain ⟨hsome, ⟨s, hs, hkey⟩, s', hs', hkey'⟩ := hx
  obtain ⟨d, hd⟩ := Option.isSome_iff_exists.1 hsome
  obtain ⟨hright, -, -⟩ := receiveLogin_right h ha
  refine ⟨d, hd, ⟨s, hs, hkey, (hright s hs).name hkey⟩, s', hs', hkey', ?_⟩
  rw [← hdigest d hd]
  exact (hright s' hs').response hkey'

/-- The digest that is kept is that of the last challenge. -/
theorem iscsiLoginAsync_digest {env : LoginEnv} {r : LoginRequest}
    (h : iscsiLoginAsync env c = (c', some r))
    (hdigest : ∀ d, digest = some d → c.targetChapR = d) :
    ∀ d, nextDigest env c digest = some d → c'.targetChapR = d := by
  obtain ⟨hkeys, -⟩ := iscsiLoginAsync_sent h
  have hkeep : (c.requesting env).targetChapR = c.targetChapR := by
    unfold Context.requesting Context.phased Context.randomized
    dsimp only
    split <;> split <;> split <;> split <;> rfl
  have hcontext := loginKeys_context hkeys
  intro d hd
  unfold nextDigest at hd
  cases hchallenges : (c.requesting env).challenges with
  | false =>
    rw [hchallenges, if_neg Bool.false_ne_true] at hcontext hd
    rw [hcontext]
    exact hkeep.trans (hdigest d hd)
  | true =>
    rw [hchallenges, if_pos rfl] at hcontext hd
    rw [hcontext]
    exact Option.some.inj hd

end

/-! ## A whole login -/

/-- In a login that succeeds every reply that answers a challenge authenticates the target. -/
theorem ChapLogin.authenticates {c c' : Context} {digest : Option (List UInt8)}
    {steps : List ChapStep} (h : ChapLogin c digest steps c')
    (hdigest : ∀ d, digest = some d → c.targetChapR = d) :
    ∀ x ∈ steps, x.Answers → x.Authenticates := by
  induction h with
  | final h =>
    exact List.forall_mem_singleton.2 (ChapStep.Answers.authenticates h (.inr rfl) hdigest)
  | @next env c c₁ c₂ c' digest q r steps hreply hasync _ ih =>
    have hkeep : c₁.targetChapR = c.targetChapR :=
      congrArg TargetSecret.targetChapR (receiveLogin_right hreply (.inl rfl)).2.1
    refine List.forall_mem_cons.2
      ⟨ChapStep.Answers.authenticates hreply (.inl rfl) hdigest, ih ?_⟩
    exact iscsiLoginAsync_digest hasync fun d hd => hkeep.trans (hdigest d hd)

/-- **A login that succeeds has authenticated the target if and only if a reply after a challenge
carried a name and a response**, whatever they were: the code compares them. -/
theorem mutual_chap_iff {c c' : Context} {steps : List ChapStep} (h : MutualLogin c steps c') :
    (∃ x ∈ steps, x.Authenticates) ↔ ∃ x ∈ steps, x.Answers := by
  obtain ⟨env, c₁, r, hasync, hlogin⟩ := h
  constructor
  · rintro ⟨x, hx, digest, hdigest, ⟨s, hs, hkey, -⟩, s', hs', hkey', -⟩
    exact ⟨x, hx, by rw [hdigest]; rfl, ⟨s, hs, hkey⟩, s', hs', hkey'⟩
  · rintro ⟨x, hx, hanswers⟩
    refine ⟨x, hx, hlogin.authenticates ?_ x hx hanswers⟩
    exact iscsiLoginAsync_digest hasync fun d hd => by cases hd

/-- A reply that ends the security negotiation, and says so, after the challenge answers it. -/
theorem answers_of_transit {c c' : Context} {q : InPdu} {a : LoginAction}
    {digest : Option (List UInt8)} (h : receiveLogin c q = (c', a))
    (ha : a = .login ∨ a = .callback scsiStatusGood 0) (hsent : digest.isSome)
    (hmust : mustAuthenticate c q = true) : ChapStep.Answers ⟨c, q, digest⟩ :=
  ⟨hsent, (receiveLogin_right h ha).2.2 hmust⟩

/-! ## A login with both secrets -/

/-- A configuration with both secrets. -/
def mutualContext : Context where
  initiatorName := ofString "iqn.i"
  targetName := ofString "iqn.t"
  sessionType := .normal
  user := ofString "u"
  passwd := ofString "p"
  targetUser := ofString "t"
  targetPasswd := ofString "s"

/-- A challenge of sixteen bytes, and a hash function that knows one digest. -/
def mutualEnv : LoginEnv where
  challenge := List.replicate 16 1
  computeChapR := fun _ _ _ _ => List.replicate 16 0xab

/-- The context when a reply was received and the next Login Request was sent. -/
def mutualNext (c : Context) (q : InPdu) : Context :=
  (iscsiLoginAsync mutualEnv (receiveLogin c q).1).1

/-- A reply with which the login goes on. -/
theorem ChapLogin.next_of {c c' : Context} {digest : Option (List UInt8)} {q : InPdu}
    {steps : List ChapStep} (hreply : (receiveLogin c q).2 = .login)
    (hsent : (iscsiLoginAsync mutualEnv (receiveLogin c q).1).2.isSome)
    (hrest : ChapLogin (mutualNext c q) (nextDigest mutualEnv (receiveLogin c q).1 digest)
      steps c') :
    ChapLogin c digest (⟨c, q, digest⟩ :: steps) c' := by
  obtain ⟨r, hr⟩ := Option.isSome_iff_exists.1 hsent
  exact .next (Prod.ext rfl hreply) (Prod.ext rfl hr) hrest

/-- The reply that ends the login. -/
theorem ChapLogin.final_of {c : Context} {digest : Option (List UInt8)} {q : InPdu}
    (hgood : (receiveLogin c q).2 = .callback scsiStatusGood 0) :
    ChapLogin c digest [⟨c, q, digest⟩] (receiveLogin c q).1 :=
  .final (Prod.ext rfl hgood)

/-- The context when the first Login Request was sent. -/
def mutualSent : Context := (iscsiLoginAsync mutualEnv mutualContext).1

/-- A login, once its first Login Request was sent. -/
theorem mutualLogin_of {c' : Context} {steps : List ChapStep}
    (h : ChapLogin mutualSent none steps c') : MutualLogin mutualContext steps c' := by
  have hsent : (iscsiLoginAsync mutualEnv mutualContext).2.isSome := by decide +kernel
  have hno : nextDigest mutualEnv mutualContext none = none := by decide +kernel
  obtain ⟨r, hr⟩ := Option.isSome_iff_exists.1 hsent
  exact ⟨mutualEnv, mutualSent, r, Prod.ext rfl hr, hno ▸ h⟩

/-- The target chooses CHAP. -/
def mutualChoice : InPdu := loginResponse 0 0 ["AuthMethod=CHAP"]

/-- The target sends its challenge. -/
def mutualChallenge : InPdu := loginResponse 0 1 ["CHAP_A=5", "CHAP_I=1", "CHAP_C=0x0102"]

/-- The target answers the challenge of the initiator. -/
def mutualAnswer : InPdu :=
  loginResponse (iscsiPduLoginTransit ||| iscsiPduLoginNsgOpneg) 2
    ["CHAP_N=t", "CHAP_R=0xabababababababababababababababab"]

/-- The target ends the login. -/
def mutualEnd : InPdu := loginResponse loginResponseFinal 3 []

/-- A login in which the target answers. -/
theorem mutual_chap_answered : ∃ steps c', MutualLogin mutualContext steps c' ∧
    ∃ x ∈ steps, x.Authenticates := by
  have hlogin := mutualLogin_of <|
    .next_of (q := mutualChoice) (by decide +kernel) (by decide +kernel) <|
    .next_of (q := mutualChallenge) (by decide +kernel) (by decide +kernel) <|
    .next_of (q := mutualAnswer) (by decide +kernel) (by decide +kernel) <|
    .final_of (q := mutualEnd) (by decide +kernel)
  refine ⟨_, _, hlogin, (mutual_chap_iff hlogin).2 ⟨_, .tail _ (.tail _ (.head _)), ?_⟩⟩
  exact ⟨by decide +kernel, by decide +kernel, by decide +kernel⟩

/-- The target claims that the security negotiation is over, and the login succeeds without. -/
theorem mutual_chap_bypassed : ¬∀ (c c' : Context) (steps : List ChapStep), c.user ≠ [] →
    c.passwd ≠ [] → c.targetUser ≠ [] → c.targetPasswd ≠ [] → MutualLogin c steps c' →
      ∃ x ∈ steps, x.Authenticates := by
  intro h
  obtain ⟨x, hx, digest, hdigest, -⟩ := h mutualContext _ _ (by decide) (by decide) (by decide)
    (by decide) (mutualLogin_of (ChapLogin.final_of (q := mutualEnd) (by decide +kernel)))
  obtain rfl := List.mem_singleton.1 hx
  cases hdigest

end Libiscsi
