import Libiscsi.LoginRun

/-!
# The first Login Request of a connection

The stage of a login and the leg of its security negotiation are in the context, and a redirect
leaves them there. The first Login Request on the new connection is that of a new login if the
context is where a login begins (`freshLogin_iff`), so that a run of logins and redirects begins a
new login on each connection if the replies before each redirect have left the context there
(`connections_fresh_iff`).
-/

namespace Libiscsi

open CString

/-! ## The beginning of a login -/

/-- The key that says which type the session has. -/
def sessionTypeKey (t : SessionType) : CStr :=
  if t = .discovery then ofString "SessionType=Discovery" else ofString "SessionType=Normal"

/-- The first Login Request of a login: in the security negotiation, with an offer of CHAP, where
there is a user, and else in the operational negotiation, with the names of the session. -/
structure FreshLogin (who : LoginIdentity) (r : LoginRequest) : Prop where
  secneg : who.user ≠ [] → r.flags &&& iscsiPduLoginCsgFf = iscsiPduLoginCsgSecneg ∧
    ofString "AuthMethod=CHAP,None" ∈ r.keys
  opneg : who.user = [] → r.flags &&& iscsiPduLoginCsgFf = iscsiPduLoginCsgOpneg
  initiatorName : snprintf (ofString "InitiatorName=" ++ who.initiatorName) ∈ r.keys
  sessionType : sessionTypeKey who.sessionType ∈ r.keys
  targetName : who.sessionType = .normal →
    ∃ name, snprintf (ofString "TargetName=" ++ name) ∈ r.keys

/-- The context is where a login begins. -/
def Context.StartsLogin (c : Context) : Prop :=
  c.secnegPhase = .offerChap ∧ (c.user = [] ∨ c.currentPhase = iscsiPduLoginCsgSecneg)

/-! ## Keys by their first letters -/

/-- An added key is the one that was given, under the condition that was given. -/
theorem mem_addKey {cond : Bool} {key k : CStr} : k ∈ addKey cond key ↔ cond = true ∧ k = key := by
  cases cond <;> simp [addKey]

/-- A letter that only the keys of the first leg begin with. -/
def FirstLeg (c : Context) (k : CStr) : Prop :=
  (k.head? = some 0x53 → c.offersChap = true) ∧
    (k.head? = some 0x41 → (c.inSecneg && c.offersChap) = true)

/-- Another letter. -/
theorem FirstLeg.of_head {c : Context} {k : CStr} {b : UInt8} (h : k.head? = some b)
    (hs : b ≠ 0x53) (ha : b ≠ 0x41) : FirstLeg c k := by
  rw [FirstLeg, h]
  exact ⟨fun heq => absurd (Option.some.inj heq) hs, fun heq => absurd (Option.some.inj heq) ha⟩

/-- An added key with another letter. -/
theorem firstLeg_addKey {c : Context} {cond : Bool} {key : CStr} {b : UInt8}
    (h : key.head? = some b) (hs : b ≠ 0x53 := by decide) (ha : b ≠ 0x41 := by decide) :
    ∀ k ∈ addKey cond key, FirstLeg c k := by
  intro k hk
  rw [(mem_addKey.1 hk).2]
  exact .of_head h hs ha

/-- The keys of a Login Request by their first letters. -/
theorem loginKeys_head {env : LoginEnv} {c c' : Context} {keys : List CStr}
    (h : loginKeys env c = some (c', keys)) : ∀ k ∈ keys, FirstLeg c k := by
  unfold loginKeys at h
  split at h
  · cases h
  rename_i targetname htarget
  split at h
  · cases h
  rename_i c'' chapResponse hresponse
  obtain ⟨rfl, rfl⟩ := Prod.mk.inj (Option.some.inj h)
  have htargetname : ∀ k ∈ targetname, FirstLeg c k := by
    unfold iscsiLoginAddTargetname at htarget
    split at htarget
    · obtain rfl := Option.some.inj htarget
      exact List.forall_mem_nil _
    split at htarget
    · cases htarget
    · obtain rfl := Option.some.inj htarget
      exact List.forall_mem_singleton.2 (.of_head (b := 0x54) rfl (by decide) (by decide))
  have hchap : ∀ k ∈ chapResponse, FirstLeg c k := by
    unfold iscsiLoginAddChapResponse at hresponse
    split at hresponse
    · obtain ⟨-, rfl⟩ := Prod.mk.inj (Option.some.inj hresponse)
      exact List.forall_mem_nil _
    split at hresponse
    · cases hresponse
    dsimp only at hresponse
    split at hresponse
    · obtain ⟨-, rfl⟩ := Prod.mk.inj (Option.some.inj hresponse)
      exact List.forall_mem_singleton.2 (.of_head (b := 0x43) rfl (by decide) (by decide))
    · obtain ⟨-, rfl⟩ := Prod.mk.inj (Option.some.inj hresponse)
      intro k hk
      refine .of_head (b := 0x43) ?_ (by decide) (by decide)
      simp only [List.mem_append, List.mem_cons, List.not_mem_nil, or_false] at hk
      rcases hk with rfl | rfl | rfl <;> rfl
  have hfixed : ∀ {cond : Bool} {l : List String}, (∀ key ∈ l, ∃ b, (ofString key).head? = some b ∧
      b ≠ 0x53 ∧ b ≠ 0x41) →
        ∀ k ∈ l.flatMap fun key => addKey cond (ofString key), FirstLeg c k := by
    intro cond l hl k hk
    obtain ⟨key, hkey, hk⟩ := List.mem_flatMap.1 hk
    obtain ⟨b, hb, hs, ha⟩ := hl key hkey
    exact firstLeg_addKey hb hs ha k hk
  have hsession : ∀ k ∈ iscsiLoginAddSessiontype c, FirstLeg c k := by
    intro k hk
    obtain ⟨hcond, rfl⟩ := mem_addKey.1 hk
    refine ⟨fun _ => hcond, fun hhead => ?_⟩
    have hs : (sessionTypeKey c.sessionType).head? = some 0x53 := by
      unfold sessionTypeKey
      split <;> rfl
    exact absurd (hs.symm.trans hhead) (by decide)
  have hauth : ∀ k ∈ iscsiLoginAddAuthmethod c, FirstLeg c k := by
    intro k hk
    obtain ⟨hcond, rfl⟩ := mem_addKey.1 hk
    exact ⟨fun hhead => absurd hhead (by decide), fun _ => hcond⟩
  simp only [List.forall_mem_append]
  refine ⟨⟨⟨⟨⟨⟨⟨⟨⟨⟨⟨⟨⟨⟨⟨⟨?_, ?_⟩, htargetname⟩, hsession⟩, ?_⟩, hauth⟩, ?_⟩, ?_⟩, hchap⟩, ?_⟩, ?_⟩,
    ?_⟩, ?_⟩, ?_⟩, hfixed (by decide)⟩, ?_⟩, hfixed (by decide)⟩
  · exact firstLeg_addKey (b := 0x49) rfl
  · exact firstLeg_addKey (b := 0x49) rfl
  · exact firstLeg_addKey (b := 0x48) rfl
  · exact firstLeg_addKey (b := 0x43) rfl
  · exact firstLeg_addKey (b := 0x43) rfl
  · exact firstLeg_addKey (b := 0x44) rfl
  · exact firstLeg_addKey (b := 0x49) rfl
  · exact firstLeg_addKey (b := 0x49) rfl
  · exact firstLeg_addKey (b := 0x4d) rfl
  · exact firstLeg_addKey (b := 0x46) rfl
  · exact firstLeg_addKey (b := 0x4d) rfl

/-! ## One Login Request -/

/-- The keys of the first leg. -/
theorem loginKeys_mem {env : LoginEnv} {c c' : Context} {keys : List CStr}
    (h : loginKeys env c = some (c', keys)) (hoffers : c.offersChap = true) :
    snprintf (ofString "InitiatorName=" ++ c.initiatorName) ∈ keys ∧
      sessionTypeKey c.sessionType ∈ keys ∧
      (c.sessionType = .normal → ∃ name, snprintf (ofString "TargetName=" ++ name) ∈ keys) ∧
      (c.inSecneg = true → ofString "AuthMethod=CHAP,None" ∈ keys) := by
  unfold loginKeys at h
  split at h
  · cases h
  rename_i targetname htarget
  split at h
  · cases h
  obtain ⟨rfl, rfl⟩ := Prod.mk.inj (Option.some.inj h)
  have hname : snprintf (ofString "InitiatorName=" ++ c.initiatorName) ∈
      iscsiLoginAddInitiatorname c := mem_addKey.2 ⟨hoffers, rfl⟩
  have hsession : sessionTypeKey c.sessionType ∈ iscsiLoginAddSessiontype c :=
    mem_addKey.2 ⟨hoffers, rfl⟩
  have htargetname : c.sessionType = .normal →
      ∃ name, snprintf (ofString "TargetName=" ++ name) ∈ targetname := by
    intro hnormal
    unfold iscsiLoginAddTargetname at htarget
    rw [if_neg (by simp [hnormal, hoffers])] at htarget
    split at htarget
    · cases htarget
    · obtain rfl := Option.some.inj htarget
      exact ⟨_, List.mem_singleton.2 rfl⟩
  have hauth : c.inSecneg = true →
      ofString "AuthMethod=CHAP,None" ∈ iscsiLoginAddAuthmethod c := by
    intro hsecneg
    refine mem_addKey.2 ⟨?_, rfl⟩
    rw [hsecneg, hoffers]
    rfl
  simp only [List.mem_append]
  refine ⟨by simp only [hname, true_or], by simp only [hsession, true_or, or_true], ?_, ?_⟩
  · intro hnormal
    obtain ⟨name, hmem⟩ := htargetname hnormal
    exact ⟨name, by simp only [hmem, true_or, or_true]⟩
  · intro hsecneg
    simp only [hauth hsecneg, true_or, or_true]

/-- The phases that a Login Request is made from. -/
theorem phased_phases (c : Context) :
    c.phased.secnegPhase = c.secnegPhase ∧ c.phased.identity = c.identity ∧
      c.phased.currentPhase = (if c.user = [] then iscsiPduLoginCsgOpneg else c.currentPhase) ∧
      (c.phased.inSecneg = true → c.phased.nextPhase = iscsiPduLoginNsgOpneg) ∧
      (c.phased.inOpneg = true → c.phased.nextPhase = iscsiPduLoginNsgFf) := by
  by_cases huser : c.user = []
  · have heq : c.phased =
        { c with currentPhase := iscsiPduLoginCsgOpneg, nextPhase := iscsiPduLoginNsgFf } := by
      unfold Context.phased
      rw [if_pos huser]
      rfl
    rw [heq, if_pos huser]
    have hstage : iscsiPduLoginCsgOpneg ≠ iscsiPduLoginCsgSecneg := by decide
    exact ⟨rfl, rfl, rfl, fun h => absurd (beq_iff_eq.1 h) hstage, fun _ => rfl⟩
  rw [if_neg huser]
  unfold Context.phased
  rw [if_neg huser]
  dsimp only
  by_cases hsecneg : c.inSecneg = true
  · rw [if_pos hsecneg, if_neg (show ¬Context.inOpneg _ = true by
      rw [Context.inOpneg, show c.currentPhase = 0 from beq_iff_eq.1 hsecneg]
      decide)]
    refine ⟨rfl, rfl, rfl, fun _ => rfl, fun h => ?_⟩
    rw [Context.inOpneg, show c.currentPhase = 0 from beq_iff_eq.1 hsecneg] at h
    exact absurd h (by decide)
  rw [if_neg hsecneg]
  by_cases hopneg : c.inOpneg = true
  · rw [if_pos hopneg]
    exact ⟨rfl, rfl, rfl, fun h => absurd h hsecneg, fun _ => rfl⟩
  · rw [if_neg hopneg]
    exact ⟨rfl, rfl, rfl, fun h => absurd h hsecneg, fun h => absurd h hopneg⟩

/-- The stage in the flags of a Login Request. -/
theorem loginFlags_csg {c : Context} :
    (c.currentPhase = iscsiPduLoginCsgSecneg → c.nextPhase = iscsiPduLoginNsgOpneg →
      c.loginFlags &&& iscsiPduLoginCsgFf = iscsiPduLoginCsgSecneg) ∧
    (c.currentPhase = iscsiPduLoginCsgOpneg → c.nextPhase = iscsiPduLoginNsgFf →
      c.loginFlags &&& iscsiPduLoginCsgFf = iscsiPduLoginCsgOpneg) := by
  unfold Context.loginFlags
  constructor
  all_goals
    intro hphase hnext
    rw [hphase, hnext]
    dsimp only
    split <;> decide

/-- **A Login Request is the first one of a login if and only if the context is where a login
begins.** -/
theorem freshLogin_iff {env : LoginEnv} {c c' : Context} {r : LoginRequest}
    (h : iscsiLoginAsync env c = (c', some r)) : FreshLogin c.identity r ↔ c.StartsLogin := by
  obtain ⟨hkeys, hflags⟩ := iscsiLoginAsync_sent h
  obtain ⟨c₁, hc₁⟩ : ∃ c₁, c₁ = c.requesting env := ⟨_, rfl⟩
  rw [← hc₁] at hkeys hflags
  unfold Context.requesting at hc₁
  set c₀ := ({ c with loginAttempts := c.loginAttempts + 1 }).randomized env with hc₀
  have hrandom : c₀.identity = c.identity ∧ c₀.secnegPhase = c.secnegPhase ∧
      c₀.currentPhase = c.currentPhase := by
    rw [hc₀]
    unfold Context.randomized
    split <;> exact ⟨rfl, rfl, rfl⟩
  obtain ⟨hidentity₀, hsecneg₀, hphase₀⟩ := hrandom
  obtain ⟨hsecneg, hidentity, hphase, hnext, hnext'⟩ := phased_phases c₀
  rw [← hc₁] at hsecneg hidentity hphase hnext hnext'
  rw [hsecneg₀] at hsecneg
  rw [hidentity₀] at hidentity
  rw [hphase₀, show c₀.user = c.user from congrArg LoginIdentity.user hidentity₀] at hphase
  have hhead := loginKeys_head hkeys
  constructor
  · intro hfresh
    have hoffers : c₁.offersChap = true := by
      refine (hhead _ hfresh.sessionType).1 ?_
      unfold sessionTypeKey
      split <;> rfl
    refine ⟨hsecneg ▸ beq_iff_eq.1 hoffers, ?_⟩
    rcases eq_or_ne c.user [] with huser | huser
    · exact .inl huser
    · have hauth := (hhead _ (hfresh.secneg huser).2).2 rfl
      rw [if_neg huser] at hphase
      exact .inr (hphase ▸ beq_iff_eq.1 (Bool.and_eq_true_iff.1 hauth).1)
  · rintro ⟨hoffer, hstage⟩
    have hoffers : c₁.offersChap = true := by
      rw [Context.offersChap, hsecneg, hoffer]
      rfl
    obtain ⟨hname, htype, htarget, hauth⟩ := loginKeys_mem hkeys hoffers
    have hname₁ : c₁.initiatorName = c.initiatorName :=
      congrArg LoginIdentity.initiatorName hidentity
    have htype₁ : c₁.sessionType = c.sessionType := congrArg LoginIdentity.sessionType hidentity
    rw [hname₁] at hname
    rw [htype₁] at htype htarget
    refine ⟨fun (huser : c.user ≠ []) => ?_, fun (huser : c.user = []) => ?_, hname, htype, htarget⟩
    · rw [if_neg huser, hstage.resolve_left huser] at hphase
      have hin : c₁.inSecneg = true := beq_iff_eq.2 hphase
      exact ⟨hflags ▸ loginFlags_csg.1 hphase (hnext hin), hauth hin⟩
    · rw [if_pos huser] at hphase
      exact hflags ▸ loginFlags_csg.2 hphase (hnext' (beq_iff_eq.2 hphase))

/-! ## A run of connections -/

/-- A run of `iscsi_full_connect_async`, from the context that is connected first, with the first
Login Request of each connection and the context in which it was made. -/
inductive Connections : Context → List (Context × LoginRequest) → Context → Prop where
  | first {env : LoginEnv} {c c' : Context} {r : LoginRequest}
      (h : iscsiLoginAsync env c = (c', some r)) : Connections c [(c, r)] c'
  | continues {env : LoginEnv} {c c₁ c₂ : Context} {firsts : List (Context × LoginRequest)}
      {q : InPdu} (h : Connections c firsts c₁) (hnext : LoginContinues env c₁ q c₂) :
      Connections c firsts c₂
  | redirect {env : LoginEnv} {fd : Int} {c c₁ c₂ c₃ : Context}
      {firsts : List (Context × LoginRequest)} {q : InPdu} {r : LoginRequest}
      (h : Connections c firsts c₁)
      (hreply : receiveLogin c₁ q = (c₂, .callback scsiStatusRedirect 0))
      (hfirst : iscsiLoginAsync env (c₂.reconnected fd) = (c₃, some r)) :
      Connections c (firsts ++ [(c₂.reconnected fd, r)]) c₃

/-- A reply with which the login goes on does not change who logs in to what. -/
theorem identity_receiveLogin {c c' : Context} {q : InPdu} {a : LoginAction}
    (h : receiveLogin c q = (c', a)) (ha : a ≠ .callback scsiStatusError 0)
    (ha' : a ≠ .callback scsiStatusError (-1)) : c'.identity = c.identity := by
  obtain ⟨c₁, hc₁, hcase⟩ := iscsiProcessLoginReply_parsed h ha ha'
  have hserials : (iscsiProcessPduSerials c q).identity = c.identity := by
    unfold iscsiProcessPduSerials
    split <;> rfl
  have htake : ∀ c : Context, (c.takeStatsn q).identity = c.identity := by
    intro c
    unfold Context.takeStatsn
    split <;> rfl
  have hadvance : (c₁.advance q).identity = c₁.identity := by
    unfold Context.advance
    split <;> rfl
  have hstrings : c₁.identity = c.identity := by
    rw [hc₁, foldl_stringContext_keeps Context.identity fun c s => (stringContext_keeps c s).2,
      htake, hserials]
  rcases hcase with ⟨-, rfl, -⟩ | ⟨-, -, -, rfl⟩ | ⟨-, -, rfl⟩
  · exact hstrings
  · exact hadvance.trans hstrings
  · exact hadvance.trans hstrings

/-- A Login Request does not change who logs in to what. -/
theorem identity_loginAsync {env : LoginEnv} {c c' : Context} {r : Option LoginRequest}
    (h : iscsiLoginAsync env c = (c', r)) : c'.identity = c.identity :=
  iscsiLoginAsync_keeps (fun _ _ _ _ _ _ _ _ _ _ _ => rfl) h

/-- The same initiator logs in to the same target on all connections, and each first Login Request
is that of a login if the context was where a login begins. -/
theorem Connections.fresh_iff {c c' : Context} {firsts : List (Context × LoginRequest)}
    (h : Connections c firsts c') : c'.identity = c.identity ∧
      ∀ x ∈ firsts, (FreshLogin c.identity x.2 ↔ x.1.StartsLogin) := by
  induction h with
  | first h =>
    refine ⟨identity_loginAsync h, List.forall_mem_singleton.2 (freshLogin_iff h)⟩
  | continues _ hnext ih =>
    obtain ⟨c₂, r, hreply, hasync⟩ := hnext
    refine ⟨?_, ih.2⟩
    rw [identity_loginAsync hasync, identity_receiveLogin hreply (by decide) (by decide), ih.1]
  | @redirect env fd c c₁ c₂ c₃ firsts q r _ hreply hfirst ih =>
    have hidentity : (c₂.reconnected fd).identity = c.identity :=
      (identity_receiveLogin hreply (by decide) (by decide)).trans ih.1
    refine ⟨(identity_loginAsync hfirst).trans hidentity, ?_⟩
    rw [List.forall_mem_append, List.forall_mem_singleton]
    exact ⟨ih.2, hidentity ▸ freshLogin_iff hfirst⟩

/-- **Every connection begins with the first Login Request of a login if and only if the context
was where a login begins whenever a connection was there**, as a fresh context is. -/
theorem connections_fresh_iff {c c' : Context} {firsts : List (Context × LoginRequest)}
    (h : Connections c firsts c') :
    (∀ x ∈ firsts, FreshLogin c.identity x.2) ↔ ∀ x ∈ firsts, x.1.StartsLogin :=
  forall₂_congr h.fresh_iff.2

/-! ## A redirect after the security negotiation began -/

/-- A context with a user. -/
def chapContext : Context where
  initiatorName := ofString "iqn.i"
  targetName := ofString "iqn.t"
  user := ofString "u"
  passwd := ofString "p"
  sessionType := .normal

/-- A reply that redirects. -/
def redirectResponse : InPdu :=
  let q := loginResponse 0 1 ["TargetAddress=10.0.0.2:3260"]
  { q with hdr := scsiSetUint16 q.hdr 36 0x0101 }

/-- A reply that chooses CHAP. -/
def chapResponse : InPdu := loginResponse 0 0 ["AuthMethod=CHAP"]

/-- A connection and a redirect. -/
theorem connections_redirected {c c₁ : Context} {firsts : List (Context × LoginRequest)}
    {q : InPdu} (h : Connections c firsts c₁)
    (hreply : (receiveLogin c₁ q).2 = .callback scsiStatusRedirect 0)
    (hsent : (iscsiLoginAsync {} ((receiveLogin c₁ q).1.reconnected 4)).2.isSome) :
    ∃ c₂ r, iscsiLoginAsync {} ((receiveLogin c₁ q).1.reconnected 4) = (c₂, some r) ∧
      Connections c (firsts ++ [((receiveLogin c₁ q).1.reconnected 4, r)]) c₂ := by
  obtain ⟨r, hr⟩ := Option.isSome_iff_exists.1 hsent
  have hfirst : iscsiLoginAsync {} ((receiveLogin c₁ q).1.reconnected 4) =
      ((iscsiLoginAsync {} ((receiveLogin c₁ q).1.reconnected 4)).1, some r) := Prod.ext rfl hr
  exact ⟨_, r, hfirst, .redirect h (Prod.ext rfl hreply) hfirst⟩

/-- A reply with which the login goes on. -/
theorem loginContinues_of {c : Context} {q : InPdu} (hreply : (receiveLogin c q).2 = .login)
    (hsent : (iscsiLoginAsync {} (receiveLogin c q).1).2.isSome) :
    LoginContinues {} c q (iscsiLoginAsync {} (receiveLogin c q).1).1 := by
  obtain ⟨r, hr⟩ := Option.isSome_iff_exists.1 hsent
  exact ⟨(receiveLogin c q).1, r, Prod.ext rfl hreply, Prod.ext rfl hr⟩

/-- The context when the first Login Request was sent. -/
def chapSent : Context := (iscsiLoginAsync {} chapContext).1

/-- The first connection. -/
theorem chap_first : ∃ r, Connections chapContext [(chapContext, r)] chapSent := by
  have hsent : (iscsiLoginAsync {} chapContext).2.isSome := by decide +kernel
  obtain ⟨r, hr⟩ := Option.isSome_iff_exists.1 hsent
  exact ⟨r, .first (Prod.ext rfl hr)⟩

/-- A redirect with the first reply. -/
theorem connections_fresh_twice : ∃ firsts c', firsts.length = 2 ∧
    Connections chapContext firsts c' ∧ ∀ x ∈ firsts, FreshLogin chapContext.identity x.2 := by
  obtain ⟨r, h⟩ := chap_first
  obtain ⟨c₂, r', -, h'⟩ := connections_redirected (q := redirectResponse) h (by decide +kernel)
    (by decide +kernel)
  refine ⟨_, c₂, rfl, h', (connections_fresh_iff h').2 ?_⟩
  rw [List.forall_mem_append, List.forall_mem_singleton, List.forall_mem_singleton]
  have hsecneg : ((receiveLogin chapSent redirectResponse).1.reconnected 4).secnegPhase =
      .offerChap := by decide +kernel
  have hphase : ((receiveLogin chapSent redirectResponse).1.reconnected 4).currentPhase =
      iscsiPduLoginCsgSecneg := by decide +kernel
  exact ⟨⟨rfl, .inr rfl⟩, hsecneg, .inr hphase⟩

/-- The context when the target chose CHAP, and the algorithm was offered. -/
def chapChosen : Context := (iscsiLoginAsync {} (receiveLogin chapSent chapResponse).1).1

/-- A redirect when the target has chosen CHAP. -/
theorem redirect_not_fresh : ¬∀ (c c' : Context) (firsts : List (Context × LoginRequest)),
    c.currentPhase = 0 → c.secnegPhase = .offerChap → Connections c firsts c' →
      ∀ x ∈ firsts, FreshLogin c.identity x.2 := by
  intro hall
  obtain ⟨r, h⟩ := chap_first
  have hnext : LoginContinues {} chapSent chapResponse chapChosen :=
    loginContinues_of (by decide +kernel) (by decide +kernel)
  have hreply : (receiveLogin chapChosen redirectResponse).2 =
      .callback scsiStatusRedirect 0 := by decide +kernel
  have hsent : (iscsiLoginAsync {}
      ((receiveLogin chapChosen redirectResponse).1.reconnected 4)).2.isSome := by decide +kernel
  obtain ⟨c₂, r', hfirst, h'⟩ := connections_redirected (h.continues hnext) hreply hsent
  have hfresh : FreshLogin chapContext.identity r' := hall chapContext c₂ _ rfl rfl h'
    ((receiveLogin chapChosen redirectResponse).1.reconnected 4, r')
    (List.mem_append_right _ (List.mem_singleton.2 rfl))
  have hidentity : ((receiveLogin chapChosen redirectResponse).1.reconnected 4).identity =
      chapContext.identity := by decide +kernel
  rw [← hidentity] at hfresh
  have hphase : ((receiveLogin chapChosen redirectResponse).1.reconnected 4).secnegPhase ≠
      .offerChap := by decide +kernel
  exact hphase ((freshLogin_iff hfirst).1 hfresh).1

end Libiscsi
