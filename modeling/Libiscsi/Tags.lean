import Libiscsi.Requests
import Libiscsi.Lib.Run

/-!
# The tags of a session

The initiator task tags of the PDUs of a session that expect a reply: where they are drawn
(`iscsi_itt_post_increment`), where the login sets and reads the counter, and where the PDUs leave.
What becomes of the PDUs apart from that is left open: any of them may leave at any time. A login
PDU has the tag that is drawn next, so the tags of a context are apart (`tags_unique`) as long as no
other request gets it before the login is done.
-/

namespace Libiscsi

/-! ## Tags -/

/-- The counter after a tag is drawn. -/
def ittNext (itt : UInt32) : UInt32 := if itt + 1 = 0xffffffff then 0 else itt + 1

/-- A tag is drawn from the counter of the context. -/
theorem iscsiIttPostIncrement_itt (w : World) : (iscsiIttPostIncrement w).1 = w.iscsi.itt ∧
    (iscsiIttPostIncrement w).2.iscsi.itt = ittNext w.iscsi.itt := ⟨rfl, rfl⟩

/-- A PDU that expects a reply, with the number of its tag among those of the context. -/
structure TagPdu where
  itt : UInt32
  isLogin : Bool
  number : ℕ
  deriving DecidableEq, Repr

/-- What of a context has to do with tags, with the PDUs in `outqueue` and `waitpdu`, in the order
in which they were created, and the number of tags that were drawn. -/
structure TagContext where
  itt : UInt32 := 0
  currentPhase : ℕ := 0
  secnegPhase : ℕ := 0
  isLoggedin : Bool := false
  pendingReconnect : Bool := false
  pdus : List TagPdu := []
  draws : ℕ := 0
  deriving DecidableEq, Repr

/-- A context, and the one it had before a reconnect that is under way. -/
structure TagState where
  iscsi : TagContext := {}
  oldIscsi : Option TagContext := none
  deriving DecidableEq, Repr

namespace TagContext

/-- A request that expects a reply is created, if it can be allocated. -/
def request (c : TagContext) (ok : Bool) : TagContext :=
  { c with
    itt := ittNext c.itt
    draws := c.draws + 1
    pdus := if ok then c.pdus ++ [{ itt := c.itt, isLogin := false, number := c.draws }]
      else c.pdus }

/-- The part of `iscsi_login_async` that is about tags. -/
def login (c : TagContext) (rand : Fin (2 ^ 31)) (ok : Bool) : TagContext :=
  let c := if c.currentPhase = 0 ∧ c.secnegPhase = 0 then { c with itt := UInt32.ofNat rand } else c
  { c with
    pdus := if ok then c.pdus ++ [{ itt := c.itt, isLogin := true, number := c.draws }]
      else c.pdus }

/-- A login is successful. -/
def loginDone (c : TagContext) : TagContext :=
  { c with currentPhase := 3 <<< 2, isLoggedin := true, itt := ittNext c.itt, draws := c.draws + 1 }

/-- A PDU leaves the queues. -/
def remove (c : TagContext) (i : ℕ) : TagContext := { c with pdus := c.pdus.eraseIdx i }

end TagContext

/-- The functions that create a request. -/
inductive TagRequest where
  /-- `iscsi_scsi_command_async`. -/
  | scsi
  /-- The same for `iscsi_testunitready_connect` and `iscsi_inquiry_task_connect`, which hide the
  context before the reconnect. -/
  | scsiConnect
  | nopOut
  | taskMgmt
  /-- `iscsi_discovery_async`. -/
  | discovery
  | logout
  deriving DecidableEq, Repr

/-- What happens in a session. -/
inductive TagOp where
  /-- `iscsi_login_async`, once the socket is connected. -/
  | login (rand : Fin (2 ^ 31)) (ok : Bool)
  /-- The same after a reply to a login PDU, which leaves; the phases are those of the reply. -/
  | loginContinue (i currentPhase secnegPhase : ℕ) (rand : Fin (2 ^ 31)) (ok : Bool)
  | loginDone
  | request (kind : TagRequest) (ok : Bool)
  /-- A PDU is completed or cancelled. -/
  | remove (old : Bool) (i : ℕ)
  | logoutDone
  /-- A reconnect is put off. -/
  | pending
  /-- A new context is made for a reconnect. -/
  | reconnect
  /-- The reconnect is successful; the commands of the old context are created anew after it. -/
  | reconnected
  deriving DecidableEq, Repr

namespace TagState

/-- The context in which a request is created. -/
def requestContext (s : TagState) : TagRequest → TagContext
  | .scsi => s.oldIscsi.getD s.iscsi
  | _ => s.iscsi

/-- What a function looks at before it draws a tag. -/
def allowed (s : TagState) (kind : TagRequest) : Bool :=
  match kind with
  | .scsi | .scsiConnect =>
    (s.requestContext kind).isLoggedin || (s.requestContext kind).pendingReconnect
  | .nopOut => s.oldIscsi.isNone && !s.iscsi.pendingReconnect && s.iscsi.isLoggedin
  | .taskMgmt | .logout => s.iscsi.isLoggedin
  | .discovery => true

/-- One step. -/
def step (s : TagState) : TagOp → TagState
  | .login rand ok => if s.iscsi.isLoggedin then s else { s with iscsi := s.iscsi.login rand ok }
  | .loginContinue i currentPhase secnegPhase rand ok =>
    if s.iscsi.isLoggedin then s
    else { s with
      iscsi := ({ s.iscsi.remove i with currentPhase, secnegPhase }).login rand ok }
  | .loginDone => { s with iscsi := s.iscsi.loginDone }
  | .request kind ok =>
    if s.allowed kind then
      match kind, s.oldIscsi with
      | .scsi, some old => { s with oldIscsi := some (old.request ok) }
      | _, _ => { s with iscsi := s.iscsi.request ok }
    else s
  | .remove old i =>
    if old then { s with oldIscsi := s.oldIscsi.map (·.remove i) }
    else { s with iscsi := s.iscsi.remove i }
  | .logoutDone => { s with iscsi := { s.iscsi with isLoggedin := false } }
  | .pending => { s with iscsi := { s.iscsi with pendingReconnect := true } }
  | .reconnect => { iscsi := {}, oldIscsi := some (s.oldIscsi.getD s.iscsi) }
  | .reconnected => { iscsi := { s.iscsi with pendingReconnect := false }, oldIscsi := none }

/-- A login PDU is created only where no PDU but the one that was answered is outstanding, and a
request only where the context is logged in or no login PDU is outstanding. -/
def OpSafe (op : TagOp) (s : TagState) : Prop :=
  match op with
  | .login _ _ => s.iscsi.isLoggedin = true ∨ s.iscsi.pdus = []
  | .loginContinue i _ _ _ _ => s.iscsi.isLoggedin = true ∨ (s.iscsi.remove i).pdus = []
  | .request kind _ => (s.requestContext kind).isLoggedin = true ∨
      ∀ p ∈ (s.requestContext kind).pdus, p.isLogin = false
  | _ => True

end TagState

/-- Fewer than `2^32 - 1` tags were drawn since the PDU was created. -/
def TagContext.Recent (c : TagContext) (p : TagPdu) : Prop :=
  c.draws - (if p.isLogin then p.number else p.number + 1) < 2 ^ 32 - 1

/-- The reserved tag is not used and will not be, and two PDUs of which one is a request have
different tags, if the older one is recent. Where all are recent, the tag of a PDU finds no other
one. -/
structure TagContext.Unique (c : TagContext) : Prop where
  itt_ne : c.itt ≠ 0xffffffff
  pdu_ne : ∀ p ∈ c.pdus, p.itt ≠ 0xffffffff
  distinct : c.pdus.Pairwise fun p q =>
    p.isLogin = false ∨ q.isLogin = false → c.Recent p → p.itt ≠ q.itt
  match_eq : (∀ p ∈ c.pdus, c.Recent p) → ∀ q ∈ c.pdus, c.pdus.filter (·.itt = q.itt) = [q]

/-- Both contexts have unique tags. -/
def TagState.Unique (s : TagState) : Prop := s.iscsi.Unique ∧ ∀ old ∈ s.oldIscsi, old.Unique

/-! ## The invariant -/

/-- The tag of a number, from the first one on. -/
def tag (base n : ℕ) : ℕ := (base + n) % (2 ^ 32 - 1)

/-- The tags are those of the numbers. A login PDU is the oldest one, and where the context is
logged in its tag was passed. -/
structure TagContext.Inv (base : ℕ) (c : TagContext) : Prop where
  itt_eq : c.itt.toNat = tag base c.draws
  pdu_eq : ∀ p ∈ c.pdus, p.itt.toNat = tag base p.number
  number_le : ∀ p ∈ c.pdus, if p.isLogin ∧ c.isLoggedin = false then p.number ≤ c.draws
    else p.number < c.draws
  order : c.pdus.Pairwise fun p q => q.isLogin = false ∧ p.number < q.number

/-- The counter goes on to the next tag, and passes the reserved one. -/
theorem toNat_ittNext {itt : UInt32} {base n : ℕ} (h : itt.toNat = tag base n) :
    (ittNext itt).toNat = tag base (n + 1) := by
  have hlt : tag base n < 2 ^ 32 - 1 := Nat.mod_lt _ (by decide)
  have hadd : (itt + 1).toNat = tag base n + 1 := by
    rw [UInt32.toNat_add, h]
    exact Nat.mod_eq_of_lt (by simp only [UInt32.toNat_one]; omega)
  have hnext : tag base (n + 1) = (tag base n + 1) % (2 ^ 32 - 1) := by
    unfold tag
    rw [Nat.mod_add_mod, Nat.add_assoc]
  rw [hnext]
  unfold ittNext
  by_cases hres : itt + 1 = 0xffffffff
  · rw [if_pos hres]
    rw [hres] at hadd
    have heq : tag base n + 1 = 2 ^ 32 - 1 := hadd.symm
    rw [heq, Nat.mod_self]
    rfl
  · rw [if_neg hres, hadd]
    refine (Nat.mod_eq_of_lt ?_).symm
    have hne : (itt + 1).toNat ≠ 2 ^ 32 - 1 := fun heq => hres (UInt32.toNat_inj.1 heq)
    omega

/-- Tags whose numbers differ by less than the number of tags are different. -/
theorem tag_ne {base m n : ℕ} (hlt : m < n) (hnear : n - m < 2 ^ 32 - 1) :
    tag base m ≠ tag base n := by
  intro heq
  have hmod : m ≡ n [MOD 2 ^ 32 - 1] := Nat.ModEq.add_left_cancel' base heq
  have hdvd := (Nat.modEq_iff_dvd' hlt.le).1 hmod
  have hle := Nat.le_of_dvd (by omega) hdvd
  omega

/-- A tag finds one PDU where no two have the same. -/
theorem filter_itt {pdus : List TagPdu} (h : pdus.Pairwise fun p q => p.itt ≠ q.itt) {q : TagPdu}
    (hq : q ∈ pdus) : pdus.filter (·.itt = q.itt) = [q] := by
  induction pdus with
  | nil => cases hq
  | cons p pdus ih =>
    obtain ⟨hp, hpdus⟩ := List.pairwise_cons.1 h
    rcases List.mem_cons.1 hq with rfl | hmem
    · rw [List.filter_cons_of_pos (by simp)]
      have hnone : pdus.filter (·.itt = q.itt) = [] := by
        refine List.filter_eq_nil_iff.2 fun p hmem heq => ?_
        exact hp p hmem (of_decide_eq_true heq).symm
      rw [hnone]
    · rw [List.filter_cons_of_neg (by simpa using hp q hmem)]
      exact ih hpdus hmem

namespace TagContext
variable {c : TagContext} {base : ℕ}

theorem inv_new : Inv 0 {} :=
  ⟨rfl, List.forall_mem_nil _, List.forall_mem_nil _, .nil⟩

/-- **Under the invariant the tags are unique.** -/
theorem Inv.unique (hi : c.Inv base) : c.Unique := by
  have hreserved : ∀ {itt : UInt32} {n}, itt.toNat = tag base n → itt ≠ 0xffffffff := by
    rintro itt n heq rfl
    have hlt : tag base n < 2 ^ 32 - 1 := Nat.mod_lt _ (by decide)
    rw [← heq] at hlt
    exact absurd hlt (by decide)
  have hdistinct : c.pdus.Pairwise fun p q => c.Recent p → p.itt ≠ q.itt := by
    refine hi.order.imp_of_mem fun {p q} hp hq hpq hrecent heq => ?_
    obtain ⟨hlogin, hlt⟩ := hpq
    have hq' := hi.number_le q hq
    rw [if_neg (by rw [hlogin]; simp)] at hq'
    have hnear : q.number - p.number < 2 ^ 32 - 1 := by
      unfold Recent at hrecent
      split at hrecent <;> omega
    refine @tag_ne base _ _ hlt hnear ?_
    rw [← hi.pdu_eq p hp, ← hi.pdu_eq q hq, heq]
  refine ⟨hreserved hi.itt_eq, fun p hp => hreserved (hi.pdu_eq p hp), ?_, fun hrecent q hq => ?_⟩
  · refine hdistinct.imp ?_
    intro p q hpq _
    exact hpq
  · refine filter_itt ?_ hq
    exact hdistinct.imp_of_mem fun hp _ hpq => hpq (hrecent _ hp)

/-- A request gets the next tag, where no login PDU has it. -/
theorem Inv.request (hi : c.Inv base) (ok : Bool)
    (hsafe : c.isLoggedin = true ∨ ∀ p ∈ c.pdus, p.isLogin = false) :
    (c.request ok).Inv base := by
  have hlt : ∀ p ∈ c.pdus, p.number < c.draws := by
    intro p hp
    have hle := hi.number_le p hp
    rcases hsafe with hlog | hno
    · rw [if_neg (by rw [hlog]; simp)] at hle
      exact hle
    · rw [if_neg (by rw [hno p hp]; simp)] at hle
      exact hle
  cases ok with
  | false =>
    refine ⟨toNat_ittNext hi.itt_eq, hi.pdu_eq, fun p hp => ?_, hi.order⟩
    have hp' := hlt p hp
    change if _ then _ ≤ c.draws + 1 else _ < c.draws + 1
    split <;> omega
  | true =>
    refine ⟨toNat_ittNext hi.itt_eq, fun p hp => ?_, fun p hp => ?_, ?_⟩
    · rcases List.mem_append.1 hp with hp | hp
      · exact hi.pdu_eq p hp
      · rw [List.mem_singleton.1 hp]
        exact hi.itt_eq
    · change if _ then _ ≤ c.draws + 1 else _ < c.draws + 1
      have hp' : p.number ≤ c.draws := by
        rcases List.mem_append.1 hp with hp | hp
        · exact (hlt p hp).le
        · rw [List.mem_singleton.1 hp]
      split <;> omega
    · refine List.pairwise_append.2 ⟨hi.order, List.pairwise_singleton _ _, fun p hp q hq => ?_⟩
      rw [List.mem_singleton.1 hq]
      exact ⟨rfl, hlt p hp⟩

/-- A login PDU gets the next tag, or a new first one, where nothing else is outstanding. -/
theorem Inv.login (hi : c.Inv base) (rand : Fin (2 ^ 31)) (ok : Bool) (hpdus : c.pdus = [])
    (hlog : c.isLoggedin = false) : ∃ base, (c.login rand ok).Inv base := by
  obtain ⟨base, itt, hitt, hlogin⟩ : ∃ base itt, itt.toNat = tag base c.draws ∧
      c.login rand ok = { c with itt, pdus := if ok then [⟨itt, true, c.draws⟩] else [] } := by
    unfold TagContext.login
    rw [hpdus]
    split
    · refine ⟨rand + (2 ^ 32 - 2) * c.draws, UInt32.ofNat rand, ?_, ?_⟩
      · have hrand := rand.isLt
        have hnat : (UInt32.ofNat rand).toNat = rand := UInt32.toNat_ofNat_of_lt (by
          change (rand : ℕ) < 2 ^ 32
          omega)
        have hsum : (rand : ℕ) + (2 ^ 32 - 2) * c.draws + c.draws =
            rand + (2 ^ 32 - 1) * c.draws := by
          omega
        unfold tag
        rw [hnat, hsum, Nat.add_mul_mod_self_left, Nat.mod_eq_of_lt (by omega)]
      · rfl
    · refine ⟨base, c.itt, hi.itt_eq, ?_⟩
      simp only [hpdus, List.nil_append]
  refine ⟨base, ?_⟩
  rw [hlogin]
  cases ok with
  | false => exact ⟨hitt, List.forall_mem_nil _, List.forall_mem_nil _, .nil⟩
  | true =>
    refine ⟨hitt, List.forall_mem_singleton.2 hitt, List.forall_mem_singleton.2 ?_,
      List.pairwise_singleton _ _⟩
    rw [if_pos ⟨rfl, hlog⟩]

theorem Inv.loginDone (hi : c.Inv base) : c.loginDone.Inv base := by
  refine ⟨toNat_ittNext hi.itt_eq, hi.pdu_eq, fun p hp => ?_, hi.order⟩
  have hle := hi.number_le p hp
  change if _ then _ ≤ c.draws + 1 else _ < c.draws + 1
  split at hle <;> split <;> omega

theorem Inv.remove (hi : c.Inv base) (i : ℕ) : (c.remove i).Inv base := by
  have hsub : (c.pdus.eraseIdx i).Sublist c.pdus := List.eraseIdx_sublist _ _
  exact ⟨hi.itt_eq, fun p hp => hi.pdu_eq p (hsub.subset hp),
    fun p hp => hi.number_le p (hsub.subset hp), hi.order.sublist hsub⟩

theorem Inv.logoutDone (hi : c.Inv base) : Inv base { c with isLoggedin := false } := by
  refine ⟨hi.itt_eq, hi.pdu_eq, fun p hp => ?_, hi.order⟩
  have hle := hi.number_le p hp
  simp only [and_true]
  split at hle <;> split
  · omega
  · rename_i hlogin hno
    exact absurd hlogin.1 hno
  · omega
  · omega

end TagContext

namespace TagState
variable {s : TagState}

/-- Both contexts have the invariant. -/
def Inv (s : TagState) : Prop :=
  (∃ base, s.iscsi.Inv base) ∧ ∀ old ∈ s.oldIscsi, ∃ base, old.Inv base

theorem Inv.unique (hi : s.Inv) : s.Unique := by
  obtain ⟨⟨base, hiscsi⟩, hold⟩ := hi
  refine ⟨hiscsi.unique, fun old hmem => ?_⟩
  obtain ⟨base, hi⟩ := hold old hmem
  exact hi.unique

/-- A request is made. -/
theorem Inv.request (hi : s.Inv) {kind : TagRequest} {ok : Bool}
    (hsafe : OpSafe (.request kind ok) s) : (s.step (.request kind ok)).Inv := by
  obtain ⟨⟨base, hiscsi⟩, hold⟩ := hi
  unfold TagState.step
  simp only
  cases s.allowed kind with
  | false => exact ⟨⟨base, hiscsi⟩, hold⟩
  | true =>
    rw [if_pos rfl]
    have hother : s.requestContext kind = s.iscsi →
        (∃ base, (s.iscsi.request ok).Inv base) := fun heq =>
      ⟨base, hiscsi.request ok (heq ▸ hsafe)⟩
    cases kind with
    | scsi =>
      cases hs : s.oldIscsi with
      | none =>
        refine ⟨hother (by unfold requestContext; rw [hs]; rfl), fun old hmem => ?_⟩
        exact hold old (by rw [hs]; exact hmem)
      | some old =>
        refine ⟨⟨base, hiscsi⟩, fun old' hmem => ?_⟩
        obtain ⟨base', hold'⟩ := hold old (by rw [hs]; rfl)
        cases hmem
        refine ⟨base', hold'.request ok ?_⟩
        have hctx : s.requestContext .scsi = old := by
          unfold requestContext
          rw [hs]
          rfl
        exact hctx ▸ hsafe
    | scsiConnect => exact ⟨hother rfl, hold⟩
    | nopOut => exact ⟨hother rfl, hold⟩
    | taskMgmt => exact ⟨hother rfl, hold⟩
    | discovery => exact ⟨hother rfl, hold⟩
    | logout => exact ⟨hother rfl, hold⟩

/-- **A safe step keeps the invariant.** -/
theorem Inv.step (hi : s.Inv) {op : TagOp} (hsafe : OpSafe op s) : (s.step op).Inv := by
  obtain ⟨⟨base, hiscsi⟩, hold⟩ := hi
  cases op with
  | login rand ok =>
    unfold TagState.step
    cases hlog : s.iscsi.isLoggedin with
    | true => exact ⟨⟨base, hiscsi⟩, hold⟩
    | false =>
      rcases hsafe with htrue | hpdus
      · rw [hlog] at htrue
        cases htrue
      · exact ⟨hiscsi.login rand ok hpdus hlog, hold⟩
  | loginContinue i currentPhase secnegPhase rand ok =>
    unfold TagState.step
    cases hlog : s.iscsi.isLoggedin with
    | true => exact ⟨⟨base, hiscsi⟩, hold⟩
    | false =>
      rcases hsafe with htrue | hpdus
      · rw [hlog] at htrue
        cases htrue
      · have hphases : TagContext.Inv base
            { s.iscsi.remove i with currentPhase, secnegPhase } := by
          obtain ⟨hitt, hpdu, hnumber, horder⟩ := hiscsi.remove i
          exact ⟨hitt, hpdu, hnumber, horder⟩
        exact ⟨hphases.login rand ok hpdus hlog, hold⟩
  | loginDone => exact ⟨⟨base, hiscsi.loginDone⟩, hold⟩
  | request kind ok =>
    exact Inv.request ⟨⟨base, hiscsi⟩, hold⟩ hsafe
  | remove old i =>
    cases old with
    | false => exact ⟨⟨base, hiscsi.remove i⟩, hold⟩
    | true =>
      refine ⟨⟨base, hiscsi⟩, fun old' hmem => ?_⟩
      obtain ⟨old, hold', rfl⟩ := Option.mem_map.1 hmem
      obtain ⟨base', hi⟩ := hold old hold'
      exact ⟨base', hi.remove i⟩
  | logoutDone => exact ⟨⟨base, hiscsi.logoutDone⟩, hold⟩
  | pending => exact ⟨⟨base, ⟨hiscsi.1, hiscsi.2, hiscsi.3, hiscsi.4⟩⟩, hold⟩
  | reconnect =>
    refine ⟨⟨0, TagContext.inv_new⟩, fun old hmem => ?_⟩
    cases hmem
    cases hs : s.oldIscsi with
    | none => exact ⟨base, hiscsi⟩
    | some old => exact hold old (by rw [hs]; rfl)
  | reconnected =>
    exact ⟨⟨base, ⟨hiscsi.1, hiscsi.2, hiscsi.3, hiscsi.4⟩⟩, fun old hmem => by cases hmem⟩

end TagState

/-- **In a run all of whose steps are safe, the tags are unique in every state.** -/
theorem tags_unique {s : TagState}
    (hrun : GoodRun (fun op s s' => s' = TagState.step s op) TagState.OpSafe {} s) : s.Unique := by
  have hi : s.Inv := Run.invariant hrun
    ⟨⟨0, TagContext.inv_new⟩, fun old hmem => by cases hmem⟩ ?_
  · exact hi.unique
  · rintro op t t' ht ⟨rfl, hsafe⟩
    exact ht.step hsafe

/-- A login, its reply, and a text request after it. -/
theorem tags_unique_login : ((((({} : TagState).step (.login (Fin.last _) true)).step
    .loginDone).step (.remove false 0)).step (.request .discovery true)).Unique := by
  have hlogin : GoodRun (fun op s s' => s' = TagState.step s op) TagState.OpSafe {} _ :=
    .tail .refl ⟨.login (Fin.last _) true, rfl, .inr rfl⟩
  have hdone := hlogin.tail ⟨.loginDone, rfl, trivial⟩
  have hremove := hdone.tail ⟨.remove false 0, rfl, trivial⟩
  exact tags_unique (hremove.tail ⟨.request .discovery true, rfl, .inl rfl⟩)

/-- A text request that is created while a login PDU is outstanding gets its tag. -/
theorem discovery_notUnique : ¬∀ s,
    Run (fun op s s' => s' = TagState.step s op) {} s → s.Unique := by
  intro h
  obtain ⟨hunique, -⟩ := h _ ((Relation.ReflTransGen.refl.tail ⟨.login 7 true, rfl⟩).tail
    ⟨.request .discovery true, rfl⟩)
  have hpair := hunique.distinct
  have hne := (List.pairwise_cons.1 hpair).1 _ List.mem_cons_self
  exact hne (.inr rfl) (by unfold TagContext.Recent; decide) rfl

end Libiscsi
