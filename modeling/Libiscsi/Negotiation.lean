import Libiscsi.LoginRun

/-!
# Negotiated parameters

What a login leaves of the parameters that were offered. Each key is stored as it comes, so that the
last answer decides, whatever was offered (`LoginSucceeds.negotiated`); the result obeys the offer
when the last answers do (`login_obeys_iff`). Only ImmediateData is combined with the offer.
-/

namespace Libiscsi

open CString

/-! ## The last answer -/

/-- What is overwritten by some elements of a list is in the end what the last of them says. -/
theorem foldl_ite_last {α β : Type} (p : α → Bool) (v : α → β) : ∀ (l : List α) (b : β),
    l.foldl (fun b a => if p a then v a else b) b = ((l.filter p).getLast?.map v).getD b
  | [], _ => rfl
  | a :: l, b => by
    rw [List.foldl_cons, foldl_ite_last p v l, List.filter_cons]
    by_cases h : p a = true
    · rw [if_pos h, if_pos h, List.getLast?_cons]
      cases (l.filter p).getLast? <;> rfl
    · rw [if_neg h, if_neg h]

/-- What can only be switched off is off in the end if it was, or if some element does it. -/
theorem foldl_and_eq_false {α : Type} (p : α → Bool) : ∀ (l : List α) (b : Bool),
    l.foldl (fun b a => b && !p a) b = false ↔ b = false ∨ ∃ a ∈ l, p a = true
  | [], b => by simp
  | a :: l, b => by
    rw [List.foldl_cons, foldl_and_eq_false p l]
    cases b <;> cases hp : p a <;> simp [hp]

/-- The last of the answers to a key. -/
def lastAnswer (strings : List CStr) (key : String) : Option CStr :=
  (strings.filter (hasKey · key)).getLast?

/-! ## The parameters -/

/-- The parameters that are negotiated, and what of the offer the code looks at again. -/
structure Negotiated where
  wantHeaderDigest : DigestMode
  wantDataDigest : DigestMode
  firstBurstLength : UInt32
  maxBurstLength : UInt32
  useInitialR2t : Bool
  wantImmediateData : Bool
  useImmediateData : Bool

/-- The parameters of a context. -/
def Context.negotiated (c : Context) : Negotiated where
  wantHeaderDigest := c.wantHeaderDigest
  wantDataDigest := c.wantDataDigest
  firstBurstLength := c.firstBurstLength
  maxBurstLength := c.maxBurstLength
  useInitialR2t := c.useInitialR2t
  wantImmediateData := c.wantImmediateData
  useImmediateData := c.useImmediateData

/-- An answer for ImmediateData that switches it off. -/
def refusesImmediate (want : Bool) (s : CStr) : Bool :=
  hasKey s "ImmediateData=" && (hasValue s "ImmediateData=" "No" || !want)

/-- What one string does to the parameters. -/
def Negotiated.answer (n : Negotiated) (s : CStr) : Negotiated where
  wantHeaderDigest :=
    if hasKey s "HeaderDigest=" then answeredDigest s "HeaderDigest=" else n.wantHeaderDigest
  wantDataDigest :=
    if hasKey s "DataDigest=" then answeredDigest s "DataDigest=" else n.wantDataDigest
  firstBurstLength :=
    if hasKey s "FirstBurstLength=" then storedInt (s.drop 17) else n.firstBurstLength
  maxBurstLength := if hasKey s "MaxBurstLength=" then storedInt (s.drop 15) else n.maxBurstLength
  useInitialR2t :=
    if hasKey s "InitialR2T=" then !hasValue s "InitialR2T=" "No" else n.useInitialR2t
  wantImmediateData := n.wantImmediateData
  useImmediateData := n.useImmediateData && !refusesImmediate n.wantImmediateData s

/-- The keys that are not for CHAP. -/
theorem negotiated_loginKey (c : Context) (s : CStr) :
    (loginKey c s).negotiated = c.negotiated.answer s := by
  unfold loginKey Context.negotiated Negotiated.answer refusesImmediate
  simp only [Negotiated.mk.injEq]
  refine ⟨?_, ?_, ?_, ?_, ?_, ?_, ?_⟩
  · simp only [apply_ite Context.wantHeaderDigest, ite_self]
  · simp only [apply_ite Context.wantDataDigest, ite_self]
  · simp only [apply_ite Context.firstBurstLength, ite_self]
  · simp only [apply_ite Context.maxBurstLength, ite_self]
  · simp only [apply_ite Context.useInitialR2t, ite_self]
  · simp only [apply_ite Context.wantImmediateData, ite_self]
  · simp only [apply_ite Context.useImmediateData, apply_ite Context.wantImmediateData, ite_self]
    cases hasKey s "ImmediateData=" <;> cases hasValue s "ImmediateData=" "No" <;>
      cases c.wantImmediateData <;> cases c.useImmediateData <;> rfl

/-- The CHAP keys leave the parameters alone. -/
theorem negotiated_stringContext (c : Context) (s : CStr) :
    (stringContext c s).negotiated = c.negotiated.answer s := by
  unfold stringContext
  rw [chapKey_keeps Context.negotiated fun _ _ _ _ _ => rfl, negotiated_loginKey]

/-- The strings of a reply, one after the other. -/
theorem negotiated_foldl : ∀ (strings : List CStr) (c : Context),
    (strings.foldl stringContext c).negotiated = strings.foldl Negotiated.answer c.negotiated
  | [], _ => rfl
  | s :: strings, c => by
    rw [List.foldl_cons, negotiated_foldl strings, negotiated_stringContext, List.foldl_cons]

/-- The sequence numbers are no parameters. -/
theorem negotiated_serials (c : Context) (q : InPdu) :
    (iscsiProcessPduSerials c q).negotiated = c.negotiated := by
  unfold iscsiProcessPduSerials
  split <;> rfl

/-- A reply with which the login goes on or succeeds answers the offer with its strings. -/
theorem negotiated_receiveLogin {c c' : Context} {q : InPdu} {a : LoginAction}
    (h : receiveLogin c q = (c', a)) (ha : a ≠ .callback scsiStatusError 0)
    (ha' : a ≠ .callback scsiStatusError (-1)) :
    c'.negotiated = q.strings.foldl Negotiated.answer c.negotiated ∧
      (a = .callback scsiStatusGood 0 →
        c'.headerDigest = c'.wantHeaderDigest ∧ c'.dataDigest = c'.wantDataDigest) := by
  obtain ⟨c₁, hc₁, hcase⟩ := iscsiProcessLoginReply_parsed h ha ha'
  have htake : ∀ c : Context, (c.takeStatsn q).negotiated = c.negotiated := by
    intro c
    unfold Context.takeStatsn
    split <;> rfl
  have hadvance : ∀ c : Context, (c.advance q).negotiated = c.negotiated := by
    intro c
    unfold Context.advance
    split <;> rfl
  have hn : c₁.negotiated = q.strings.foldl Negotiated.answer c.negotiated := by
    rw [hc₁, negotiated_foldl, htake, negotiated_serials]
  rcases hcase with ⟨rfl, rfl, -⟩ | ⟨-, rfl, -, rfl⟩ | ⟨-, rfl, rfl⟩
  · exact ⟨hn, fun h => by cases h⟩
  · refine ⟨?_, fun _ => ⟨rfl, rfl⟩⟩
    rw [← hn, ← hadvance c₁]
    rfl
  · exact ⟨by rw [hadvance, hn], fun h => by cases h⟩

/-- A Login Request is made from the parameters. -/
theorem negotiated_loginAsync {env : LoginEnv} {c c' : Context} {r : Option LoginRequest}
    (h : iscsiLoginAsync env c = (c', r)) : c'.negotiated = c.negotiated :=
  iscsiLoginAsync_keeps (fun _ _ _ _ _ _ _ _ _ _ _ => rfl) h

/-- **The parameters at the end are the offer with the answers of all replies**, one after the
other. -/
theorem LoginSucceeds.negotiated {c c' : Context} {replies : List InPdu}
    (h : LoginSucceeds c replies c') :
    c'.negotiated = (replies.flatMap InPdu.strings).foldl Negotiated.answer c.negotiated ∧
      c'.headerDigest = c'.wantHeaderDigest ∧ c'.dataDigest = c'.wantDataDigest := by
  induction h with
  | final h =>
    obtain ⟨hn, hdigest⟩ := negotiated_receiveLogin h (by decide) (by decide)
    exact ⟨by rw [hn, List.flatMap_cons, List.flatMap_nil, List.append_nil], hdigest rfl⟩
  | next h _ ih =>
    obtain ⟨c₁, r, hreply, hasync⟩ := h
    refine ⟨?_, ih.2⟩
    rw [ih.1, negotiated_loginAsync hasync,
      (negotiated_receiveLogin hreply (by decide) (by decide)).1, List.flatMap_cons,
      List.foldl_append]
  | redirect h _ ih =>
    obtain ⟨c₁, hreply, hasync⟩ := h
    refine ⟨?_, ih.2⟩
    rw [ih.1, negotiated_loginAsync hasync, List.flatMap_cons, List.foldl_append,
      ← (negotiated_receiveLogin hreply (by decide) (by decide)).1]
    rfl

/-! ## Obeying the offer -/

/-- A digest that is in use, any but `none`, or not in use is one that was offered. -/
def DigestMode.Offers (want used : DigestMode) : Prop :=
  (want = .none → used = .none) ∧ (want = .crc32c → used ≠ .none)

/-- The configuration before a login, as `iscsi_create_context` and `iscsi_set_immediate_data` leave
it. -/
structure Context.Configured (c : Context) : Prop where
  initialR2t : c.useInitialR2t = true
  immediateData : c.useImmediateData = c.wantImmediateData

/-- What the login left obeys the offer of `c`, to which the target answered with `strings`. -/
structure ObeysOffer (c c' : Context) (strings : List CStr) : Prop where
  initialR2t : c.wantInitialR2t = true → c'.useInitialR2t = true
  immediateData : (c.wantImmediateData = false ∨
    ∃ s ∈ strings, hasKey s "ImmediateData=" ∧ hasValue s "ImmediateData=" "No") →
      c'.useImmediateData = false
  firstBurst : 0 < c'.firstBurstLength ∧ c'.firstBurstLength ≤ c.firstBurstLength
  maxBurst : 0 < c'.maxBurstLength ∧ c'.maxBurstLength ≤ c.maxBurstLength
  bursts : c'.firstBurstLength ≤ c'.maxBurstLength
  headerDigest : c.wantHeaderDigest.Offers c'.headerDigest
  dataDigest : c.wantDataDigest.Offers c'.dataDigest

/-- A length that is answered, or offered and not answered. -/
def answeredLength (strings : List CStr) (key : String) (offered : UInt32) : UInt32 :=
  ((lastAnswer strings key).map fun s => storedInt (s.drop key.length)).getD offered

/-- The last answer to a digest key is one of what was offered. -/
def DigestAnswered (strings : List CStr) (key : String) (want : DigestMode) : Prop :=
  ∀ s, lastAnswer strings key = some s →
    (want = .none → ¬hasValue s key "CRC32C") ∧ (want = .crc32c → hasValue s key "CRC32C")

/-- The last answers to InitialR2T, to the burst lengths and to the digests obey the offer. -/
structure AnswersObey (c : Context) (strings : List CStr) : Prop where
  initialR2t : c.wantInitialR2t = true → ∀ s, lastAnswer strings "InitialR2T=" = some s →
    ¬hasValue s "InitialR2T=" "No"
  firstBurst : 0 < answeredLength strings "FirstBurstLength=" c.firstBurstLength ∧
    answeredLength strings "FirstBurstLength=" c.firstBurstLength ≤ c.firstBurstLength
  maxBurst : 0 < answeredLength strings "MaxBurstLength=" c.maxBurstLength ∧
    answeredLength strings "MaxBurstLength=" c.maxBurstLength ≤ c.maxBurstLength
  bursts : answeredLength strings "FirstBurstLength=" c.firstBurstLength ≤
    answeredLength strings "MaxBurstLength=" c.maxBurstLength
  headerDigest : DigestAnswered strings "HeaderDigest=" c.wantHeaderDigest
  dataDigest : DigestAnswered strings "DataDigest=" c.wantDataDigest

/-- A parameter of which the last answer decides. -/
theorem answer_foldl {β : Type} (f : Negotiated → β) (key : String) (v : CStr → β)
    (h : ∀ n s, f (n.answer s) = if hasKey s key then v s else f n) :
    ∀ (strings : List CStr) (n : Negotiated),
      f (strings.foldl Negotiated.answer n) = ((lastAnswer strings key).map v).getD (f n) := by
  intro strings n
  rw [lastAnswer, ← foldl_ite_last]
  induction strings generalizing n with
  | nil => rfl
  | cons s strings ih => rw [List.foldl_cons, List.foldl_cons, ih, h]

/-- ImmediateData is switched off by an answer, and never on. -/
theorem useImmediateData_foldl : ∀ (strings : List CStr) (n : Negotiated),
    (strings.foldl Negotiated.answer n).useImmediateData =
      strings.foldl (fun b s => b && !refusesImmediate n.wantImmediateData s) n.useImmediateData
  | [], _ => rfl
  | s :: strings, n => by
    rw [List.foldl_cons, List.foldl_cons, useImmediateData_foldl strings]
    rfl

/-- The digest that is in use was offered if the last answer is one of what was offered. -/
theorem offers_iff (strings : List CStr) (key : String) (want : DigestMode) :
    want.Offers (((lastAnswer strings key).map fun s => answeredDigest s key).getD want) ↔
      DigestAnswered strings key want := by
  unfold DigestMode.Offers DigestAnswered answeredDigest
  cases lastAnswer strings key with
  | none => cases want <;> simp
  | some s => cases hasValue s key "CRC32C" <;> cases want <;> simp

/-- **A login obeys the offer if the last answers do.** -/
theorem login_obeys_iff {c c' : Context} {replies : List InPdu} (hc : c.Configured)
    (h : Login c replies c') :
    ObeysOffer c c' (replies.flatMap InPdu.strings) ↔
      AnswersObey c (replies.flatMap InPdu.strings) := by
  obtain ⟨env, c₁, r, hasync, hlogin⟩ := h
  obtain ⟨hn, hheader, hdata⟩ := hlogin.negotiated
  rw [negotiated_loginAsync hasync] at hn
  generalize replies.flatMap InPdu.strings = strings at hn ⊢
  have hfirst : c'.firstBurstLength =
      answeredLength strings "FirstBurstLength=" c.firstBurstLength :=
    (congrArg Negotiated.firstBurstLength hn).trans
      (answer_foldl Negotiated.firstBurstLength "FirstBurstLength=" _ (fun _ _ => rfl) strings _)
  have hmax : c'.maxBurstLength = answeredLength strings "MaxBurstLength=" c.maxBurstLength :=
    (congrArg Negotiated.maxBurstLength hn).trans
      (answer_foldl Negotiated.maxBurstLength "MaxBurstLength=" _ (fun _ _ => rfl) strings _)
  have hr2t : c'.useInitialR2t =
      ((lastAnswer strings "InitialR2T=").map fun s => !hasValue s "InitialR2T=" "No").getD true :=
    (congrArg Negotiated.useInitialR2t hn).trans
      ((answer_foldl Negotiated.useInitialR2t "InitialR2T=" _ (fun _ _ => rfl) strings _).trans
        (by rw [show c.negotiated.useInitialR2t = true from hc.initialR2t]))
  have hhd : c'.headerDigest = ((lastAnswer strings "HeaderDigest=").map
      fun s => answeredDigest s "HeaderDigest=").getD c.wantHeaderDigest :=
    hheader.trans ((congrArg Negotiated.wantHeaderDigest hn).trans
      (answer_foldl Negotiated.wantHeaderDigest "HeaderDigest=" _ (fun _ _ => rfl) strings _))
  have hdd : c'.dataDigest = ((lastAnswer strings "DataDigest=").map
      fun s => answeredDigest s "DataDigest=").getD c.wantDataDigest :=
    hdata.trans ((congrArg Negotiated.wantDataDigest hn).trans
      (answer_foldl Negotiated.wantDataDigest "DataDigest=" _ (fun _ _ => rfl) strings _))
  have himm : c'.useImmediateData = false ↔ c.wantImmediateData = false ∨
      ∃ s ∈ strings, refusesImmediate c.wantImmediateData s = true := by
    rw [show c'.useImmediateData = _ from (congrArg Negotiated.useImmediateData hn).trans
      (useImmediateData_foldl strings _), foldl_and_eq_false,
      show c.negotiated.useImmediateData = c.wantImmediateData from hc.immediateData]
    rfl
  have hyes : (c.wantInitialR2t = true → c'.useInitialR2t = true) ↔
      (c.wantInitialR2t = true → ∀ s, lastAnswer strings "InitialR2T=" = some s →
        ¬hasValue s "InitialR2T=" "No") := by
    refine imp_congr_right fun _ => ?_
    rw [hr2t]
    cases lastAnswer strings "InitialR2T=" <;> simp
  constructor
  · intro hobey
    exact ⟨hyes.1 hobey.initialR2t, hfirst ▸ hobey.firstBurst, hmax ▸ hobey.maxBurst,
      hmax ▸ hfirst ▸ hobey.bursts, (offers_iff ..).1 (hhd ▸ hobey.headerDigest),
      (offers_iff ..).1 (hdd ▸ hobey.dataDigest)⟩
  · intro hans
    refine ⟨hyes.2 hans.initialR2t, fun hno => himm.2 ?_, hfirst ▸ hans.firstBurst,
      hmax ▸ hans.maxBurst, hmax ▸ hfirst ▸ hans.bursts, hhd ▸ (offers_iff ..).2 hans.headerDigest,
      hdd ▸ (offers_iff ..).2 hans.dataDigest⟩
    rcases hno with hwant | ⟨s, hs, hkey, hvalue⟩
    · exact .inl hwant
    · refine .inr ⟨s, hs, ?_⟩
      rw [refusesImmediate, hkey, hvalue]
      rfl

/-! ## A digest that is dropped -/

/-- A configuration that offers a header digest and no other choice. -/
def digestContext : Context where
  initiatorName := ofString "iqn.i"
  targetName := ofString "iqn.t"
  sessionType := .normal
  wantHeaderDigest := .crc32c
  useInitialR2t := true
  wantImmediateData := true
  useImmediateData := true
  firstBurstLength := 262144
  maxBurstLength := 262144

/-- A login with one reply, which succeeds. -/
theorem login_one {c : Context} {q : InPdu} (hsent : (iscsiLoginAsync {} c).2.isSome)
    (hgood : (receiveLogin (iscsiLoginAsync {} c).1 q).2 = .callback scsiStatusGood 0) :
    Login c [q] (receiveLogin (iscsiLoginAsync {} c).1 q).1 := by
  obtain ⟨r, hr⟩ := Option.isSome_iff_exists.1 hsent
  exact ⟨{}, (iscsiLoginAsync {} c).1, r, Prod.ext rfl hr, .final (Prod.ext rfl hgood)⟩

/-- The target accepts the digest. -/
theorem login_obeys_crc32c : ObeysOffer digestContext
    (receiveLogin (iscsiLoginAsync {} digestContext).1
      (loginResponse loginResponseFinal 1 ["HeaderDigest=CRC32C"])).1
    ([loginResponse loginResponseFinal 1 ["HeaderDigest=CRC32C"]].flatMap InPdu.strings) := by
  refine (login_obeys_iff ⟨rfl, rfl⟩ (login_one (by decide +kernel) (by decide +kernel))).2 ?_
  have hstrings : [loginResponse loginResponseFinal 1 ["HeaderDigest=CRC32C"]].flatMap
      InPdu.strings = [ofString "HeaderDigest=CRC32C"] := by decide +kernel
  rw [hstrings]
  refine ⟨by decide, by decide +kernel, by decide +kernel, by decide +kernel, ?_, ?_⟩
  · intro s hs
    obtain rfl : ofString "HeaderDigest=CRC32C" = s := by
      rw [← Option.some.injEq, ← hs]
      decide +kernel
    exact ⟨by decide, fun _ => by decide +kernel⟩
  · intro s hs
    have hnone : lastAnswer [ofString "HeaderDigest=CRC32C"] "DataDigest=" = none := by
      decide +kernel
    rw [hnone] at hs
    cases hs

/-- The target answers with no digest, and the login ends without. -/
theorem login_drops_digest : ¬∀ (c c' : Context) (replies : List InPdu), c.Configured →
    Login c replies c' → ObeysOffer c c' (replies.flatMap InPdu.strings) := by
  intro h
  have hobey := h digestContext _ _ ⟨rfl, rfl⟩
    (login_one (q := loginResponse loginResponseFinal 1 ["HeaderDigest=None"])
      (by decide +kernel) (by decide +kernel))
  have hnone : (receiveLogin (iscsiLoginAsync {} digestContext).1
      (loginResponse loginResponseFinal 1 ["HeaderDigest=None"])).1.headerDigest = .none := by
    decide +kernel
  exact hobey.headerDigest.2 rfl hnone

end Libiscsi
