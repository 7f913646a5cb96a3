import Libiscsi.LoginReply
import Libiscsi.Lib.Outcome

/-!
# Logins

A login is the exchange of Login Requests and Login Responses that `iscsi_full_connect_async`
begins: each reply is processed, and is followed by another Login Request, by a redirect
(`iscsi_login_cb`, `lib/connect.c`) and the first Login Request on the connection to the new portal,
or by the success of the login.
-/

namespace Libiscsi

/-- What `iscsi_disconnect` and `iscsi_connect_async` leave in the context after a redirect, when
the new connection is there. -/
def Context.reconnected (c : Context) (fd : Int) : Context :=
  { c with
    fd, isConnected := true, isCorked := false, socketStatusCb := some .connectCb
    connectedPortal := strncpy c.targetAddress maxStringSize }

/-- A reply that is followed by another Login Request on the same connection. -/
def LoginContinues (env : LoginEnv) (c : Context) (q : InPdu) (c' : Context) : Prop :=
  ∃ c₁ r, receiveLogin c q = (c₁, .login) ∧ iscsiLoginAsync env c₁ = (c', some r)

/-- A reply that redirects, and the first Login Request `r` on the new connection. -/
def LoginRedirects (env : LoginEnv) (fd : Int) (c : Context) (q : InPdu) (c' : Context)
    (r : LoginRequest) : Prop :=
  ∃ c₁, receiveLogin c q = (c₁, .callback scsiStatusRedirect 0) ∧
    iscsiLoginAsync env (c₁.reconnected fd) = (c', some r)

/-- The replies to a Login Request that was sent, up to the success of the login. -/
inductive LoginSucceeds : Context → List InPdu → Context → Prop where
  | final {c c' : Context} {q : InPdu} (h : receiveLogin c q = (c', .callback scsiStatusGood 0)) :
      LoginSucceeds c [q] c'
  | next {env : LoginEnv} {c c₁ c' : Context} {q : InPdu} {replies : List InPdu}
      (h : LoginContinues env c q c₁) (hrest : LoginSucceeds c₁ replies c') :
      LoginSucceeds c (q :: replies) c'
  | redirect {env : LoginEnv} {fd : Int} {c c₁ c' : Context} {q : InPdu} {r : LoginRequest}
      {replies : List InPdu} (h : LoginRedirects env fd c q c₁ r)
      (hrest : LoginSucceeds c₁ replies c') : LoginSucceeds c (q :: replies) c'

/-- A login in a context that is connected, from its first Login Request to its success. -/
def Login (c : Context) (replies : List InPdu) (c' : Context) : Prop :=
  ∃ env c₁ r, iscsiLoginAsync env c = (c₁, some r) ∧ LoginSucceeds c₁ replies c'

/-- The strings of a reply. -/
def InPdu.strings (q : InPdu) : List CStr := (loginStrings (q.payload.length + 1) q.payload).1

/-! ## What a string does -/

/-- What a string that is accepted does to the context. -/
def stringContext (c : Context) (s : CStr) : Context :=
  chapCKey (chapPhaseKey (loginKey c s) s) s

/-- A string that is accepted changes the context in one way. -/
theorem loginString_c {st st' : LoginParse} {s : CStr} (h : loginString st s = .ok st') :
    st'.c = stringContext st.c s := by
  unfold loginString loginChapKey at h
  dsimp only at h
  split at h
  · cases h
  obtain ⟨st₁, h₁, h₂⟩ := Outcome.bind_eq_ok.1 h
  have hn : st₁.c = stringContext st.c s := by
    unfold chapNKey at h₁
    split at h₁
    · split at h₁
      · cases h₁
      · obtain rfl := Except.ok.inj h₁
        rfl
    · obtain rfl := Except.ok.inj h₁
      rfl
  rw [← hn]
  unfold chapRKey at h₂
  dsimp only at h₂
  split at h₂
  · split at h₂
    · cases h₂
    split at h₂
    · cases h₂
    · obtain rfl := Except.ok.inj h₂
      rfl
  · obtain rfl := Except.ok.inj h₂
    rfl

/-- The strings of a reply change the context one after the other. -/
theorem foldlM_loginString_c : ∀ {strings : List CStr} {st st' : LoginParse},
    strings.foldlM loginString st = .ok st' → st'.c = strings.foldl stringContext st.c
  | [], _, _, h => by
    obtain rfl := Outcome.pure_eq_ok.1 h
    rfl
  | s :: strings, st, st', h => by
    rw [List.foldlM_cons] at h
    obtain ⟨st₁, h₁, h₂⟩ := Outcome.bind_eq_ok.1 h
    rw [foldlM_loginString_c h₂, loginString_c h₁, List.foldl_cons]

/-! ## What a reply does -/

/-- A loop over the strings that did not fail went through all of them. -/
theorem parseLogin_ok {c : Context} {q : InPdu} {st : LoginParse} (h : parseLogin c q = .ok st) :
    q.strings.foldlM loginString ⟨c, mustAuthenticate c q, mustAuthenticate c q⟩ = .ok st := by
  unfold parseLogin at h
  dsimp only at h
  split at h
  · cases h
  · rename_i st' hst
    split at h
    · cases h
    · obtain rfl := Except.ok.inj h
      exact hst

/-- A reply that is not refused: the strings were parsed, and then the status and the flags decide.
What the target has to show is shown unless it redirects. -/
theorem iscsiProcessLoginReply_ok {c c' : Context} {q : InPdu} {a : LoginAction}
    (h : iscsiProcessLoginReply c q = (c', a)) (ha : a ≠ .callback scsiStatusError 0)
    (ha' : a ≠ .callback scsiStatusError (-1)) :
    ∃ st, parseLogin (c.takeStatsn q) q = .ok st ∧
      (a = .callback scsiStatusRedirect 0 ∧ c' = st.c ∧ q.loginStatus.toNat = scsiStatusRedirect ∨
        q.loginStatus = 0 ∧ (st.mustHaveChapN = false ∧ st.mustHaveChapR = false) ∧
          (a = .callback scsiStatusGood 0 ∧ q.loginFinal ∧ c' = (st.c.advance q).loggedIn ∨
            a = .login ∧ c' = st.c.advance q)) := by
  unfold iscsiProcessLoginReply at h
  rcases hparse : parseLogin (c.takeStatsn q) q with ⟨c₁, ret⟩ | st
  · rw [hparse] at h
    obtain ⟨-, rfl⟩ := Prod.mk.inj h
    unfold parseLogin at hparse
    dsimp only at hparse
    split at hparse
    · obtain ⟨-, rfl⟩ := Prod.mk.inj (Except.error.inj hparse)
      exact absurd rfl ha
    · split at hparse
      · obtain ⟨-, rfl⟩ := Prod.mk.inj (Except.error.inj hparse)
        exact absurd rfl ha'
      · cases hparse
  rw [hparse] at h
  refine ⟨st, rfl, ?_⟩
  dsimp only at h
  split at h
  · rename_i hred
    obtain ⟨rfl, rfl⟩ := Prod.mk.inj h
    exact .inl ⟨rfl, rfl, hred.1⟩
  split at h
  · obtain ⟨-, rfl⟩ := Prod.mk.inj h
    exact absurd rfl ha
  rename_i hstatus
  split at h
  · obtain ⟨-, rfl⟩ := Prod.mk.inj h
    exact absurd rfl ha
  rename_i hname
  split at h
  · obtain ⟨-, rfl⟩ := Prod.mk.inj h
    exact absurd rfl ha
  rename_i hresponse
  refine .inr ⟨not_not.1 hstatus, ⟨Bool.eq_false_iff.2 hname, Bool.eq_false_iff.2 hresponse⟩, ?_⟩
  split at h
  · rename_i hfinal
    obtain ⟨rfl, rfl⟩ := Prod.mk.inj h
    exact .inl ⟨rfl, hfinal, rfl⟩
  · obtain ⟨rfl, rfl⟩ := Prod.mk.inj h
    exact .inr ⟨rfl, rfl⟩

/-- A reply that was parsed: the strings one after the other, and then the stage. -/
theorem iscsiProcessLoginReply_parsed {c c' : Context} {q : InPdu} {a : LoginAction}
    (h : iscsiProcessLoginReply c q = (c', a)) (ha : a ≠ .callback scsiStatusError 0)
    (ha' : a ≠ .callback scsiStatusError (-1)) :
    ∃ c₁, c₁ = q.strings.foldl stringContext (c.takeStatsn q) ∧
      (a = .callback scsiStatusRedirect 0 ∧ c' = c₁ ∧ q.loginStatus.toNat = scsiStatusRedirect ∨
        q.loginStatus = 0 ∧ a = .callback scsiStatusGood 0 ∧ q.loginFinal ∧
          c' = (c₁.advance q).loggedIn ∨
        q.loginStatus = 0 ∧ a = .login ∧ c' = c₁.advance q) := by
  obtain ⟨st, hparse, hcase⟩ := iscsiProcessLoginReply_ok h ha ha'
  refine ⟨st.c, foldlM_loginString_c (parseLogin_ok hparse), ?_⟩
  rcases hcase with hred | ⟨hstatus, -, ⟨hgood, hfinal, hc'⟩ | ⟨hlogin, hc'⟩⟩
  · exact .inl hred
  · exact .inr (.inl ⟨hstatus, hgood, hfinal, hc'⟩)
  · exact .inr (.inr ⟨hstatus, hlogin, hc'⟩)

/-! ## What a login leaves alone -/

/-- The Login Request that is made from the context carries a challenge. -/
def Context.challenges (c : Context) : Bool :=
  c.inSecneg && c.secnegPhase == .sendResponse && c.chapC != [] && c.targetUser != []

/-- The digest that answers the challenge of a Login Request. -/
def Context.expectedDigest (env : LoginEnv) (c : Context) : List UInt8 :=
  env.computeChapR c.chapAuth (c.targetChapI + 1) c.targetPasswd
    (toHex (env.challenge.take (c.chapAuth.responseSize * 2)))

/-- The keys of a Login Request change the context only where they challenge the target. -/
theorem loginKeys_context {env : LoginEnv} {c c' : Context} {keys : List CStr}
    (h : loginKeys env c = some (c', keys)) :
    c' = if c.challenges then
      { c with targetChapI := c.targetChapI + 1, targetChapR := c.expectedDigest env } else c := by
  unfold loginKeys at h
  split at h
  · cases h
  split at h
  · cases h
  rename_i c'' chapResponse hresponse
  obtain ⟨rfl, -⟩ := Prod.mk.inj (Option.some.inj h)
  unfold iscsiLoginAddChapResponse at hresponse
  unfold Context.challenges
  split at hresponse
  · rename_i hno
    obtain ⟨rfl, -⟩ := Prod.mk.inj (Option.some.inj hresponse)
    rw [Bool.not_eq_true'] at hno
    rw [hno]
    rfl
  rename_i hsend
  split at hresponse
  · cases hresponse
  rename_i hchallenge
  dsimp only at hresponse
  split at hresponse
  · rename_i huser
    obtain ⟨rfl, -⟩ := Prod.mk.inj (Option.some.inj hresponse)
    rw [if_neg (by simp [huser])]
  · rename_i huser
    obtain ⟨rfl, -⟩ := Prod.mk.inj (Option.some.inj hresponse)
    rw [if_pos (by simp_all)]
    rfl

/-- A Login Request changes the numbers, the phases and what the target is asked. -/
theorem iscsiLoginAsync_keeps {β : Type} {f : Context → β}
    (hf : ∀ (c : Context) attempts itt cmdsn expcmdsn maxcmdsn waiting phase next chapI chapR,
      f { c with
        loginAttempts := attempts, itt := itt, cmdsn := cmdsn, expcmdsn := expcmdsn
        maxcmdsn := maxcmdsn, minCmdsnWaiting := waiting, currentPhase := phase, nextPhase := next
        targetChapI := chapI, targetChapR := chapR } = f c)
    {env : LoginEnv} {c c' : Context} {r : Option LoginRequest}
    (h : iscsiLoginAsync env c = (c', r)) : f c' = f c := by
  have hkeys : ∀ {c c' : Context} {keys : List CStr}, loginKeys env c = some (c', keys) →
      f c' = f c := by
    intro c c' keys h
    rw [loginKeys_context h]
    split
    · exact hf c ..
    · rfl
  have hrandom : ∀ c : Context, f (c.randomized env) = f c := by
    intro c
    unfold Context.randomized
    split
    · exact hf c ..
    · rfl
  have hphased : ∀ c : Context, f c.phased = f c := by
    intro c
    unfold Context.phased
    dsimp only
    split <;> split <;> split <;> exact hf c ..
  have hattempts : ∀ (c : Context) n, f { c with loginAttempts := n } = f c := by
    intro c n
    exact hf c ..
  unfold iscsiLoginAsync at h
  dsimp only at h
  split at h
  · obtain ⟨rfl, -⟩ := Prod.mk.inj h
    exact hattempts ..
  split at h
  · obtain ⟨rfl, -⟩ := Prod.mk.inj h
    exact hattempts ..
  split at h
  · obtain ⟨rfl, -⟩ := Prod.mk.inj h
    exact hattempts ..
  split at h
  · obtain ⟨rfl, -⟩ := Prod.mk.inj h
    rw [hrandom, hattempts]
  split at h
  · obtain ⟨rfl, -⟩ := Prod.mk.inj h
    rw [hphased, hrandom, hattempts]
  · rename_i hk
    obtain ⟨rfl, -⟩ := Prod.mk.inj h
    rw [hkeys hk, hphased, hrandom, hattempts]

/-- The context that a Login Request is made from. -/
def Context.requesting (env : LoginEnv) (c : Context) : Context :=
  (({ c with loginAttempts := c.loginAttempts + 1 }).randomized env).phased

/-- A Login Request that is sent, by the context with the phases that it is made from. -/
theorem iscsiLoginAsync_sent {env : LoginEnv} {c c' : Context} {r : LoginRequest}
    (h : iscsiLoginAsync env c = (c', some r)) :
    loginKeys env (c.requesting env) = some (c', r.keys) ∧
      r.flags = (c.requesting env).loginFlags := by
  unfold iscsiLoginAsync at h
  dsimp only at h
  split at h
  · cases (Prod.mk.inj h).2
  split at h
  · cases (Prod.mk.inj h).2
  split at h
  · cases (Prod.mk.inj h).2
  split at h
  · cases (Prod.mk.inj h).2
  split at h
  · cases (Prod.mk.inj h).2
  · rename_i hkeys
    obtain ⟨rfl, hr⟩ := Prod.mk.inj h
    obtain rfl := Option.some.inj hr
    exact ⟨hkeys, rfl⟩

/-- The keys that are not for CHAP change what is negotiated and where the target is. -/
theorem loginKey_keeps {β : Type} (f : Context → β)
    (hf : ∀ (c : Context) address name header data first r2t immediate burst target initiator,
      f { c with
        targetAddress := address, targetName2 := name, wantHeaderDigest := header
        wantDataDigest := data, firstBurstLength := first, useInitialR2t := r2t
        useImmediateData := immediate, maxBurstLength := burst
        targetMaxRecvDataSegmentLength := target
        initiatorMaxRecvDataSegmentLength := initiator } = f c)
    (c : Context) (s : CStr) : f (loginKey c s) = f c := by
  have hkey : ∀ {key : Bool} {c c' c₀ : Context}, f c' = f c → f c = f c₀ →
      f (if key then c' else c) = f c₀ := by
    intro key c c' c₀ h h₀
    split
    · exact h.trans h₀
    · exact h₀
  unfold loginKey
  extract_lets +lift c₁ c₂ c₃ c₄ c₅ c₆ c₇ c₈ c₉ c₁₀
  have h₆ : f c₆ = f c := hkey (hf ..) (hkey (hf ..) (hkey (hf ..) (hkey (hf ..) (hkey (hf ..)
    (hkey (hf ..) rfl)))))
  have h₇ : f c₇ = f c := by
    refine hkey ?_ h₆
    split
    · exact hf ..
    split
    · exact hf ..
    · rfl
  exact hkey (hf ..) (hkey (hf ..) (hkey (hf ..) (hkey (hf ..) h₇)))

/-- The keys for CHAP change how the challenge of the target is answered. -/
theorem chapKey_keeps {β : Type} (f : Context → β)
    (hf : ∀ (c : Context) phase chapA chapI chapC,
      f { c with secnegPhase := phase, chapA := chapA, chapI := chapI, chapC := chapC } = f c)
    (c : Context) (s : CStr) : f (chapCKey (chapPhaseKey c s) s) = f c := by
  have hphase : f (chapPhaseKey c s) = f c := by
    unfold chapPhaseKey
    dsimp only
    split <;> split <;> split <;> first | rfl | exact hf c ..
  unfold chapCKey
  split
  · exact (hf (chapPhaseKey c s) ..).trans hphase
  · exact hphase

/-- What says who logs in to what. -/
structure LoginIdentity where
  user : CStr
  initiatorName : CStr
  targetName : CStr
  sessionType : SessionType
  deriving DecidableEq

/-- Who logs in, to what. -/
def Context.identity (c : Context) : LoginIdentity where
  user := c.user
  initiatorName := c.initiatorName
  targetName := c.targetName
  sessionType := c.sessionType

/-- A string changes neither the StatSN nor who logs in to what. -/
theorem stringContext_keeps (c : Context) (s : CStr) :
    (stringContext c s).statsn = c.statsn ∧ (stringContext c s).identity = c.identity := by
  unfold stringContext
  constructor
  · rw [chapKey_keeps Context.statsn fun _ _ _ _ _ => rfl,
      loginKey_keeps Context.statsn fun _ _ _ _ _ _ _ _ _ _ _ => rfl]
  · rw [chapKey_keeps Context.identity fun _ _ _ _ _ => rfl,
      loginKey_keeps Context.identity fun _ _ _ _ _ _ _ _ _ _ _ => rfl]

/-- What no string changes a reply does not change. -/
theorem foldl_stringContext_keeps {β : Type} (f : Context → β)
    (hf : ∀ c s, f (stringContext c s) = f c) (strings : List CStr) (c : Context) :
    f (strings.foldl stringContext c) = f c := by
  induction strings generalizing c with
  | nil => rfl
  | cons s strings ih => rw [List.foldl_cons, ih, hf]

/-! ## A reply of the target -/

/-- A Login Response with these flags, StatSN and strings. -/
def loginResponse (flags : UInt8) (statsn : UInt32) (strings : List String) : InPdu :=
  let bytes := strings.flatMap fun s => CString.ofString s ++ [0]
  { hdr := scsiSetUint32 (((List.replicate 48 0).set 0 iscsiPduLoginResponse).set 1 flags) 24 statsn
    dataPos := bytes.length
    data := some bytes }

/-- The flags of the Login Response that ends the operational negotiation. -/
def loginResponseFinal : UInt8 :=
  iscsiPduLoginTransit ||| iscsiPduLoginCsgOpneg ||| iscsiPduLoginNsgFf

end Libiscsi
