import Libiscsi.FullConnect
import Libiscsi.Lib.Run

/-!
# A full connect completes once

The connect task of a full connect is at every time held by one party: the socket that is being
connected, or one request that is under way (`Pending`); each callback hands it on, or calls the
callback it holds and frees it (`Handled`). The exception is a redirect to an address to which no
connection can be started: `iscsi_login_cb` then frees the connect task and calls nothing
(`redirect_drops_callback`). In every run without one the callback is called exactly once
(`fullConnectAsync_once`).
-/

namespace Libiscsi.Conn

variable {c c' d : Conn} {ct : Addr} {r : Request}

/-- Whom the socket reports to, and with what. -/
def socketOf (c : Conn) : Option Callback × Nat :=
  (c.world.iscsi.socketStatusCb, c.world.iscsi.connectData)

/-- The socket that is being connected holds the connect task. -/
def SocketHolds (c : Conn) (ct : Addr) : Prop := c.socketOf = (some .connectCb, ct)

/-- The requests that hold the connect task. -/
def requestsOf (c : Conn) (ct : Addr) : List Request :=
  c.requests.filter fun r => r.privateData == ct

/-- The calls through the connect task. -/
def callsOf (c : Conn) (ct : Addr) : List TaskCall := c.calls.filter fun call => call.ct == ct

/-- The callbacks that take the connect task on from the login. -/
def deviceCallbacks : List Callback := [.testunitreadyCb, .inquiryPage0x0Cb, .inquiryPage0x80Cb]

/-! ## What a callback does with the connect task -/

/-- A callback that was called with the connect task has handed it on to a request of one of the
kinds, has called its callback and freed it, or, if it follows redirects, has handed it on to a new
socket. -/
inductive Handled (cbs : List Callback) (redirects : Bool) (ct : Addr) (c c' : Conn) : Prop where
  | handed (cb : Callback) (t t' : ConnectTask) (hcb : cb ∈ cbs) (h : c.connectTasks ct = some t)
      (h' : c'.connectTasks ct = some t') (hsame : t'.cb = t.cb ∧ t'.privateData = t.privateData)
      (hcalls : c'.calls = c.calls)
      (hrequests : c'.requests = c.requests ++ [{ cb, privateData := ct }])
      (hsocket : c'.socketOf = c.socketOf)
  | completed (status : Status) (t : ConnectTask) (h : c.connectTasks ct = some t)
      (h' : c'.connectTasks ct = none)
      (hcalls : c'.calls = c.calls ++ [{ ct, cb := t.cb, status, privateData := t.privateData }])
      (hrequests : c'.requests = c.requests) (hsocket : c'.socketOf = c.socketOf)
  | redirected (hr : redirects = true) (t t' : ConnectTask) (h : c.connectTasks ct = some t)
      (h' : c'.connectTasks ct = some t') (hsame : t'.cb = t.cb ∧ t'.privateData = t.privateData)
      (hcalls : c'.calls = c.calls) (hrequests : c'.requests = c.requests)
      (hsocket : c'.socketOf = (some .connectCb, c.socketOf.2))

section
variable {t : ConnectTask} {l : List Callback} {b : Bool}

/-- What a callback does, from a state in which the connect task stands as well. -/
theorem Handled.of_same {t₁ : ConnectTask} (h : c.connectTasks ct = some t)
    (h₁ : d.connectTasks ct = some t₁) (hsame : t₁.cb = t.cb ∧ t₁.privateData = t.privateData)
    (hcalls : d.calls = c.calls) (hrequests : d.requests = c.requests)
    (hsocket : d.socketOf = c.socketOf) (hh : Handled l b ct d c') : Handled l b ct c c' := by
  rw [Prod.ext_iff] at hsocket
  obtain ⟨hcb, hdata⟩ := hsame
  cases hh with
  | handed cb t₂ t₃ hmem h₂ h₃ hsame₂ hcalls₂ hrequests₂ hsocket₂ =>
    obtain rfl := Option.some.inj (h₁.symm.trans h₂)
    exact .handed cb t t₃ hmem h h₃ ⟨hsame₂.1.trans hcb, hsame₂.2.trans hdata⟩
      (hcalls₂.trans hcalls) (by rw [hrequests₂, hrequests])
      (hsocket₂.trans (Prod.ext hsocket.1 hsocket.2))
  | completed status t₂ h₂ h₃ hcalls₂ hrequests₂ hsocket₂ =>
    obtain rfl := Option.some.inj (h₁.symm.trans h₂)
    exact .completed status t h h₃ (by rw [hcalls₂, hcalls, hcb, hdata])
      (hrequests₂.trans hrequests) (hsocket₂.trans (Prod.ext hsocket.1 hsocket.2))
  | redirected hr t₂ t₃ h₂ h₃ hsame₂ hcalls₂ hrequests₂ hsocket₂ =>
    obtain rfl := Option.some.inj (h₁.symm.trans h₂)
    exact .redirected hr t t₃ h h₃ ⟨hsame₂.1.trans hcb, hsame₂.2.trans hdata⟩
      (hcalls₂.trans hcalls) (hrequests₂.trans hrequests) (by rw [hsocket₂, hsocket.2])

theorem derefTask_eq (h : c.connectTasks ct = some t) : c.derefTask ct = .ok t := by
  unfold derefTask
  rw [h]

/-- The callback is called and the connect task is freed. -/
theorem complete_handled (h : c.connectTasks ct = some t) (status : Status) :
    ∃ c', c.complete ct status = .ok c' ∧ Handled l b ct c c' := by
  set call : TaskCall := { ct, cb := t.cb, status, privateData := t.privateData } with hcall
  set d : Conn := { c with calls := c.calls ++ [call] } with hd
  have hcallTask : c.callTask ct status = .ok d := by
    unfold callTask
    rw [derefTask_eq h, Outcome.ok_bind]
  have hfree : d.freeTask ct = .ok (d.setConnectTask ct none) := by
    unfold freeTask
    rw [derefTask_eq (c := d) h, Outcome.ok_bind]
  refine ⟨d.setConnectTask ct none, ?_, .completed status t h ?_ rfl rfl rfl⟩
  · unfold complete
    rw [hcallTask, Outcome.ok_bind, hfree]
  · exact Function.update_self ..

/-- A request is started, or the callback is called. -/
theorem startOrFail_handled (h : c.connectTasks ct = some t) {cb : Callback} (hcb : cb ∈ l) :
    ∃ c', c.startOrFail cb ct = .ok c' ∧ Handled l b ct c c' := by
  unfold startOrFail
  cases c.starts.headD true with
  | true => exact ⟨_, rfl, .handed cb t t hcb h h ⟨rfl, rfl⟩ rfl rfl rfl⟩
  | false =>
    set d : Conn := { c with starts := c.starts.tail } with hd
    have htask : d.connectTasks ct = some t := h
    obtain ⟨c', hc', hh⟩ := complete_handled (l := l) htask scsiStatusError
    exact ⟨c', hc', hh.of_same h htask ⟨rfl, rfl⟩ rfl rfl rfl⟩

theorem connectCb_handled (h : c.connectTasks ct = some t) (status : Status) :
    ∃ c', c.connectCb ct status = .ok c' ∧ Handled [.loginCb] false ct c c' := by
  unfold connectCb
  split
  · exact complete_handled h _
  · exact startOrFail_handled h (by decide)

theorem testunitreadyCb_handled (h : c.connectTasks ct = some t) (reply : Reply) :
    ∃ c', c.testunitreadyCb ct reply = .ok c' ∧ Handled deviceCallbacks false ct c c' := by
  unfold testunitreadyCb
  split
  · -- a unit attention is counted, in the connect task
    rw [derefTask_eq h, Outcome.ok_bind]
    set t₁ : ConnectTask := { t with numUas := t.numUas + 1 } with ht₁
    set d := c.setConnectTask ct (some t₁) with hd
    have htask : d.connectTasks ct = some t₁ := Function.update_self ..
    have hcount : ∀ {c'}, Handled deviceCallbacks false ct d c' →
        Handled deviceCallbacks false ct c c' :=
      fun hh => hh.of_same h htask ⟨rfl, rfl⟩ rfl rfl rfl
    dsimp only
    split
    · obtain ⟨c', hc', hh⟩ := complete_handled (l := deviceCallbacks) htask scsiStatusError
      exact ⟨c', hc', hcount hh⟩
    · obtain ⟨c', hc', hh⟩ := startOrFail_handled htask
        (by decide : Callback.testunitreadyCb ∈ deviceCallbacks)
      exact ⟨c', hc', hcount hh⟩
  · split
    · exact complete_handled h _
    · exact startOrFail_handled h (by decide)

theorem inquiryPage0x0Cb_handled (h : c.connectTasks ct = some t) (reply : Reply) :
    ∃ c', c.inquiryPage0x0Cb ct reply = .ok c' ∧ Handled deviceCallbacks false ct c c' := by
  unfold inquiryPage0x0Cb
  split
  · exact complete_handled h _
  · split
    · exact complete_handled h _
    · split
      · exact startOrFail_handled h (by decide)
      · exact complete_handled h _

theorem inquiryPage0x80Cb_handled (h : c.connectTasks ct = some t) (reply : Reply) :
    ∃ c', c.inquiryPage0x80Cb ct reply = .ok c' ∧ Handled deviceCallbacks false ct c c' := by
  unfold inquiryPage0x80Cb
  split
  · exact complete_handled h _
  · split
    · exact complete_handled h _
    · next usn _ =>
      split
      · -- the serial number is taken over
        set d := c.modify fun iscsi =>
          { iscsi with unitSerialNumber := strncpy usn maxStringSize } with hd
        have htask : d.connectTasks ct = some t := h
        obtain ⟨c', hc', hh⟩ := complete_handled (l := deviceCallbacks) htask scsiStatusGood
        exact ⟨c', hc', hh.of_same h htask ⟨rfl, rfl⟩ rfl rfl rfl⟩
      · split
        · exact complete_handled h _
        · exact complete_handled h _

/-- The connect tasks, the requests and the calls are the same. -/
def SameTasks (c c' : Conn) : Prop :=
  c'.connectTasks = c.connectTasks ∧ c'.calls = c.calls ∧ c'.requests = c.requests

theorem SameTasks.trans (h : SameTasks c d) (h' : SameTasks d c') : SameTasks c c' :=
  ⟨h'.1.trans h.1, h'.2.1.trans h.2.1, h'.2.2.trans h.2.2⟩

theorem malloc_sameTasks {ok : Bool} (h : c.malloc = (ok, d)) : SameTasks c d := by
  obtain rfl : c.malloc.2 = d := by rw [h]
  exact ⟨rfl, rfl, rfl⟩

theorem resolve_sameTasks {ok : Bool} (h : c.resolve = (ok, d)) : SameTasks c d := by
  obtain rfl : c.resolve.2 = d := by rw [h]
  exact ⟨rfl, rfl, rfl⟩

/-- A socket that is connected reports as it was told to. -/
theorem tcpConnect_sameTasks {r : Int} (h : c.tcpConnect = (r, d)) :
    SameTasks c d ∧ d.socketOf = c.socketOf ∧ (r = 0 ∨ r < 0) := by
  unfold tcpConnect at h
  dsimp only at h
  split at h
  · obtain ⟨rfl, rfl⟩ := Prod.mk.inj h
    exact ⟨⟨rfl, rfl, rfl⟩, rfl, .inl rfl⟩
  · obtain ⟨rfl, rfl⟩ := Prod.mk.inj h
    exact ⟨⟨rfl, rfl, rfl⟩, rfl, .inr (by decide)⟩

/-- A connection that is started reports with what was given. -/
theorem connectAsync_sameTasks {portal : CStr} {cb : Callback} {data : Nat} {r : Int}
    (h : c.connectAsync portal cb data = (r, c')) :
    SameTasks c c' ∧ (r = 0 → c'.socketOf = (some cb, data)) := by
  unfold connectAsync at h
  split at h
  · obtain ⟨rfl, rfl⟩ := Prod.mk.inj h
    exact ⟨⟨rfl, rfl, rfl⟩, by simp⟩
  · rcases hm : c.malloc with ⟨ok, d⟩
    have hd := malloc_sameTasks hm
    rcases hr : d.resolve with ⟨ok', e⟩
    have he := hd.trans (resolve_sameTasks hr)
    simp only [hm, hr] at h
    split at h
    · obtain ⟨rfl, rfl⟩ := Prod.mk.inj h
      exact ⟨hd, by simp⟩
    split at h
    · obtain ⟨rfl, rfl⟩ := Prod.mk.inj h
      exact ⟨he, by simp⟩
    set f := e.modify fun iscsi =>
      { iscsi with socketStatusCb := some cb, connectData := data } with hf
    have hcf : SameTasks c f := he.trans ⟨rfl, rfl, rfl⟩
    rcases ht : f.tcpConnect with ⟨r', g⟩
    obtain ⟨hfg, hsocket, _⟩ := tcpConnect_sameTasks ht
    simp only [ht] at h
    split at h
    · obtain ⟨rfl, rfl⟩ := Prod.mk.inj h
      exact ⟨hcf.trans hfg, by simp⟩
    · obtain ⟨rfl, rfl⟩ := Prod.mk.inj h
      exact ⟨(hcf.trans hfg).trans ⟨rfl, rfl, rfl⟩, fun _ => hsocket⟩

/-- `iscsi_login_cb`, where a redirect finds a connection to start. -/
theorem loginCb_handled (h : c.connectTasks ct = some t) (status : Status) :
    ∃ c', c.loginCb ct status = .ok c' ∧
      ((status = scsiStatusRedirect → c.world.iscsi.targetAddress ≠ [] → c.redirect.1 = 0) →
        Handled deviceCallbacks true ct c c') := by
  unfold loginCb
  split
  · next hredirect =>
    rcases hc : c.redirect with ⟨r, e⟩
    obtain ⟨hsame, hsocket⟩ := connectAsync_sameTasks (c := c.disconnect) hc
    have hdisconnect : SameTasks c c.disconnect ∧
        c.disconnect.world.iscsi.connectData = c.world.iscsi.connectData := by
      unfold disconnect
      split <;> exact ⟨⟨rfl, rfl, rfl⟩, rfl⟩
    obtain ⟨htasks, hcalls, hrequests⟩ := hdisconnect.1.trans hsame
    have htask : e.connectTasks ct = some t := by rw [htasks, h]
    dsimp only
    split
    · next hr =>
      unfold freeTask
      rw [derefTask_eq htask, Outcome.ok_bind]
      exact ⟨_, rfl, fun hgood => absurd (hgood hredirect.1 hredirect.2) hr⟩
    · next hr =>
      refine ⟨_, rfl, fun _ => .redirected rfl t t h htask ⟨rfl, rfl⟩ hcalls hrequests ?_⟩
      rw [hsocket (not_not.1 hr), hdisconnect.2]
      rfl
  · split
    · obtain ⟨c', hc', hh⟩ := complete_handled (l := deviceCallbacks) h scsiStatusError
      exact ⟨c', hc', fun _ => hh⟩
    · rw [derefTask_eq h, Outcome.ok_bind]
      split
      · obtain ⟨c', hc', hh⟩ := startOrFail_handled h
          (by decide : Callback.testunitreadyCb ∈ deviceCallbacks)
        exact ⟨c', hc', fun _ => hh⟩
      · split
        · obtain ⟨c', hc', hh⟩ := startOrFail_handled h
            (by decide : Callback.inquiryPage0x0Cb ∈ deviceCallbacks)
          exact ⟨c', hc', fun _ => hh⟩
        · obtain ⟨c', hc', hh⟩ := complete_handled (l := deviceCallbacks) h scsiStatusGood
          exact ⟨c', hc', fun _ => hh⟩

end

/-! ## The connect task along a run -/

/-- The connect task is live, its callback was not called, and one party holds it: the socket, or
a request, which if it is a login is that of the socket. -/
structure Pending (ct : Addr) (cb : Callback) (data : Nat) (c : Conn) : Prop where
  live : ∃ t, c.connectTasks ct = some t ∧ t.cb = cb ∧ t.privateData = data
  uncalled : c.callsOf ct = []
  held : c.SocketHolds ct ∧ c.requestsOf ct = [] ∨
    ¬ c.SocketHolds ct ∧ ∃ cb', c.requestsOf ct = [{ cb := cb', privateData := ct }] ∧
      (cb' = .loginCb ∧ c.socketOf.2 = ct ∨ cb' ∈ deviceCallbacks)

/-- The connect task was freed, after its callback was called once, and nobody holds it. -/
structure Done (ct : Addr) (cb : Callback) (data : Nat) (c : Conn) : Prop where
  freed : c.connectTasks ct = none
  called : ∃ status, c.callsOf ct = [{ ct, cb, status, privateData := data }]
  unheld : ¬ c.SocketHolds ct ∧ c.requestsOf ct = []

/-- The callback was called once and the connect task freed, or the connect task waits for that,
with one party that holds it. -/
def Once (ct : Addr) (cb : Callback) (data : Nat) (c : Conn) : Prop :=
  Pending ct cb data c ∨ Done ct cb data c

theorem requestsOf_append (hrequests : c'.requests = c.requests ++ [r]) :
    c'.requestsOf ct = c.requestsOf ct ++ [r].filter fun r => r.privateData == ct := by
  unfold requestsOf
  rw [hrequests, List.filter_append]

theorem callsOf_append {call : TaskCall} (hcalls : c'.calls = c.calls ++ [call])
    (hct : call.ct = ct) : c'.callsOf ct = c.callsOf ct ++ [call] := by
  unfold callsOf
  rw [hcalls, List.filter_append]
  simp [hct]

section
variable {cb : Callback} {data : Nat}

/-- **What a callback makes of a connect task that was taken from its holder.** -/
theorem Handled.once {cbs : List Callback} {b : Bool} (h : Handled cbs b ct c c')
    (hcbs : ∀ cb' ∈ cbs, cb' = .loginCb ∧ c.socketOf.2 = ct ∨ cb' ∈ deviceCallbacks)
    (hb : b = true → c.socketOf.2 = ct)
    (live : ∃ t, c.connectTasks ct = some t ∧ t.cb = cb ∧ t.privateData = data)
    (uncalled : c.callsOf ct = []) (hunheld : ¬ c.SocketHolds ct) (hnone : c.requestsOf ct = []) :
    Once ct cb data c' := by
  obtain ⟨t, ht, rfl, rfl⟩ := live
  cases h with
  | handed cb' t₁ t' hcb h₁ h' hsame hcalls hrequests hsocket =>
    obtain rfl := Option.some.inj (ht.symm.trans h₁)
    refine .inl ⟨⟨t', h', hsame⟩, ?_, .inr ⟨?_, cb', ?_, ?_⟩⟩
    · unfold callsOf at uncalled ⊢
      rw [hcalls, uncalled]
    · unfold SocketHolds at hunheld ⊢
      rw [hsocket]
      exact hunheld
    · rw [requestsOf_append hrequests, hnone]
      simp
    · rw [hsocket]
      exact hcbs cb' hcb
  | completed status t₁ h₁ h' hcalls hrequests hsocket =>
    obtain rfl := Option.some.inj (ht.symm.trans h₁)
    refine .inr ⟨h', ⟨status, ?_⟩, ?_, ?_⟩
    · rw [callsOf_append hcalls rfl, uncalled, List.nil_append]
    · unfold SocketHolds at hunheld ⊢
      rw [hsocket]
      exact hunheld
    · unfold requestsOf at hnone ⊢
      rw [hrequests, hnone]
  | redirected hr t₁ t' h₁ h' hsame hcalls hrequests hsocket =>
    obtain rfl := Option.some.inj (ht.symm.trans h₁)
    refine .inl ⟨⟨t', h', hsame⟩, ?_, .inl ⟨?_, ?_⟩⟩
    · unfold callsOf at uncalled ⊢
      rw [hcalls, uncalled]
    · unfold SocketHolds
      rw [hsocket, hb hr]
    · unfold requestsOf at hnone ⊢
      rw [hrequests, hnone]

/-- `iscsi->socket_status_cb = NULL`. -/
def forgetSocket (c : Conn) : Conn :=
  c.modify fun iscsi => { iscsi with socketStatusCb := none }

/-- What a callback does that does not connect, seen after the socket has reported. -/
theorem Handled.forgetSocket {cbs : List Callback} (h : Handled cbs false ct c c') :
    Handled cbs false ct c.forgetSocket c'.forgetSocket := by
  have hforget : c'.socketOf = c.socketOf → c'.forgetSocket.socketOf = c.forgetSocket.socketOf :=
    fun h => Prod.ext rfl (Prod.ext_iff.1 h).2
  cases h with
  | handed cb' t t' hcb h h' hsame hcalls hrequests hsocket =>
    exact .handed cb' t t' hcb h h' hsame hcalls hrequests (hforget hsocket)
  | completed status t h h' hcalls hrequests hsocket =>
    exact .completed status t h h' hcalls hrequests (hforget hsocket)
  | redirected hr => cases hr

/-- The socket reports. -/
theorem Pending.socketStatus (h : Pending ct cb data c) (hs : c.SocketHolds ct)
    (status : Status) : ∃ d, c.socketStatus status = .ok d ∧ Once ct cb data d := by
  have hnone : c.requestsOf ct = [] := by
    rcases h.held with h | h
    · exact h.2
    · exact absurd hs h.1
  set c₁ := if status = scsiStatusGood then
      c.modify fun iscsi => { iscsi with isConnected := true }
    else c with hc₁
  have hsame : c₁.connectTasks = c.connectTasks ∧ c₁.calls = c.calls ∧
      c₁.requests = c.requests ∧ c₁.socketOf = c.socketOf := by
    rw [hc₁]
    split <;> exact ⟨rfl, rfl, rfl, rfl⟩
  obtain ⟨htasks, hcalls, hrequests, hsocket⟩ := hsame
  obtain ⟨hcb₁, hdata₁⟩ : c₁.world.iscsi.socketStatusCb = some .connectCb ∧
      c₁.world.iscsi.connectData = ct := Prod.ext_iff.1 (hsocket.trans hs)
  obtain ⟨t, ht, hcb, hdata⟩ := h.live
  obtain ⟨d, hd, hh⟩ := connectCb_handled (c := c₁) (t := t) (by rw [htasks, ht]) status
  refine ⟨d.forgetSocket, ?_, ?_⟩
  · unfold Conn.socketStatus
    dsimp only
    rw [← hc₁]
    simp only [hcb₁, hdata₁, hd, Outcome.ok_bind]
    rfl
  · refine hh.forgetSocket.once (fun cb' hcb' => .inl ⟨List.mem_singleton.1 hcb', hdata₁⟩)
      (by simp) ⟨t, by rw [← ht, ← htasks]; rfl, hcb, hdata⟩ ?_ ?_ ?_
    · rw [← h.uncalled]
      unfold callsOf
      rw [← hcalls]
      rfl
    · intro hheld
      cases congrArg Prod.fst hheld
    · rw [← hnone]
      unfold requestsOf
      rw [← hrequests]
      rfl

/-- The request that holds the connect task is answered. -/
theorem Pending.answer (h : Pending ct cb data c) {r : Request} (hr : r ∈ c.requestsOf ct)
    (reply : Reply) : ∃ d, c.answer r reply = .ok d ∧
      ((r.cb = .loginCb → reply.status = scsiStatusRedirect → c.world.iscsi.targetAddress ≠ [] →
        (c.without r).redirect.1 = 0) → Once ct cb data d) := by
  obtain ⟨hunheld, cb', hone, hkind⟩ : ¬ c.SocketHolds ct ∧ ∃ cb',
      c.requestsOf ct = [{ cb := cb', privateData := ct }] ∧
        (cb' = .loginCb ∧ c.socketOf.2 = ct ∨ cb' ∈ deviceCallbacks) := by
    rcases h.held with h | h
    · rw [h.2] at hr
      cases hr
    · exact h
  rw [hone, List.mem_singleton] at hr
  subst hr
  set c₁ := c.without { cb := cb', privateData := ct } with hc₁
  obtain ⟨t, ht, hcb, hdata⟩ := h.live
  have ht₁ : c₁.connectTasks ct = some t := ht
  have hnone : c₁.requestsOf ct = [] := by
    have herase := List.erase_filter (f := fun r : Request => r.privateData == ct)
      (l := c.requests) (a := { cb := cb', privateData := ct })
    unfold requestsOf at hone ⊢
    rw [hc₁, without, ← herase, hone]
    simp
  -- the callback that the request was made with
  have hfinish : ∀ {d : Conn} {b : Bool}, (b = true → cb' = .loginCb) →
      Handled deviceCallbacks b ct c₁ d → Once ct cb data d := by
    intro d b hb hh
    refine hh.once (fun cb'' hcb'' => .inr hcb'') (fun hb' => ?_) ⟨t, ht₁, hcb, hdata⟩
      h.uncalled hunheld hnone
    rcases hkind with hk | hk
    · exact hk.2
    · rw [hb hb'] at hk
      exact absurd hk (by decide)
  unfold Conn.answer
  rcases hkind with ⟨rfl, _⟩ | hk
  · obtain ⟨d, hd, hh⟩ := loginCb_handled ht₁ reply.status
    exact ⟨d, hd, fun hgood => hfinish (fun _ => rfl) (hh (hgood rfl))⟩
  · simp only [deviceCallbacks, List.mem_cons, List.not_mem_nil, or_false] at hk
    rcases hk with rfl | rfl | rfl
    · obtain ⟨d, hd, hh⟩ := testunitreadyCb_handled ht₁ reply
      exact ⟨d, hd, fun _ => hfinish (by simp) hh⟩
    · obtain ⟨d, hd, hh⟩ := inquiryPage0x0Cb_handled ht₁ reply
      exact ⟨d, hd, fun _ => hfinish (by simp) hh⟩
    · obtain ⟨d, hd, hh⟩ := inquiryPage0x80Cb_handled ht₁ reply
      exact ⟨d, hd, fun _ => hfinish (by simp) hh⟩

end

/-! ## Runs -/

/-- Anything else that happens: it does not use the connect task, and takes the socket over only
when the connect task has left it behind. -/
structure Elsewhere (ct : Addr) (c c' : Conn) : Prop where
  task : c'.connectTasks ct = c.connectTasks ct
  requests : c'.requestsOf ct = c.requestsOf ct
  calls : c'.callsOf ct = c.callsOf ct
  socket : c'.socketOf = c.socketOf ∨ ¬ c.SocketHolds ct ∧
    { cb := .loginCb, privateData := ct } ∉ c.requestsOf ct ∧ c'.socketOf.2 ≠ ct

theorem Elsewhere.once {cb : Callback} {data : Nat} (h : Elsewhere ct c c')
    (hc : Once ct cb data c) : Once ct cb data c' := by
  have hholds : ¬ c.SocketHolds ct → ¬ c'.SocketHolds ct := by
    intro hno hs
    rcases h.socket with hsame | ⟨_, _, hne⟩
    · exact hno (hsame.symm.trans hs)
    · exact hne (congrArg Prod.snd hs)
  rcases hc with hp | hd
  · refine .inl ⟨by rw [h.task]; exact hp.live, by rw [h.calls]; exact hp.uncalled, ?_⟩
    rw [h.requests]
    rcases hp.held with ⟨hs, hnone⟩ | ⟨hno, cb', hone, hkind⟩
    · rcases h.socket with hsame | ⟨hno, _⟩
      · exact .inl ⟨hsame.trans hs, hnone⟩
      · exact absurd hs hno
    · refine .inr ⟨hholds hno, cb', hone, ?_⟩
      rcases hkind with ⟨rfl, hdata⟩ | hdev
      · rcases h.socket with hsame | ⟨_, hnot, _⟩
        · exact .inl ⟨rfl, by rw [hsame, hdata]⟩
        · exact absurd (by rw [hone]; exact List.mem_singleton_self _) hnot
      · exact .inr hdev
  · refine .inr ⟨by rw [h.task]; exact hd.freed, by rw [h.calls]; exact hd.called,
      hholds hd.unheld.1, by rw [h.requests]; exact hd.unheld.2⟩

/-- What can happen after `iscsi_full_connect_async`, seen from its connect task. -/
inductive ConnectAct where
  /-- `iscsi_tcp_service` finds the socket connected, or in error. -/
  | socket (status : Status)
  /-- The login, or a command, is answered, or cancelled. -/
  | answer (r : Request) (reply : Reply)
  | elsewhere

/-- One step. -/
inductive ConnectStep (ct : Addr) : ConnectAct → Conn → Conn → Prop where
  | socket {c c' : Conn} {status : Status} (hs : c.SocketHolds ct)
      (h : c.socketStatus status = .ok c') : ConnectStep ct (.socket status) c c'
  | answer {c c' : Conn} {r : Request} {reply : Reply} (hr : r ∈ c.requestsOf ct)
      (h : c.answer r reply = .ok c') : ConnectStep ct (.answer r reply) c c'
  | elsewhere {c c' : Conn} (h : Elsewhere ct c c') : ConnectStep ct .elsewhere c c'

/-- The condition on a step: where a login is redirected, the connection to the address can be
started. -/
def ConnectGood : ConnectAct → Conn → Prop
  | .answer r reply, c => r.cb = .loginCb → reply.status = scsiStatusRedirect →
      c.world.iscsi.targetAddress ≠ [] → (c.without r).redirect.1 = 0
  | _, _ => True

/-- No address of a connect task was handed out before the allocator got there. -/
structure Fresh (c : Conn) : Prop where
  requests : ∀ r ∈ c.requests, r.privateData < c.world.brk
  calls : ∀ call ∈ c.calls, call.ct < c.world.brk

theorem ConnectStep.once {cb : Callback} {data : Nat} {a : ConnectAct}
    (h : ConnectStep ct a c c') (hg : ConnectGood a c) (hc : Once ct cb data c) :
    Once ct cb data c' := by
  cases h with
  | socket hs h =>
    rcases hc with hp | hd
    · obtain ⟨d, hd, honce⟩ := hp.socketStatus hs _
      obtain rfl := Except.ok.inj (hd.symm.trans h)
      exact honce
    · exact absurd hs hd.unheld.1
  | answer hr h =>
    rcases hc with hp | hd
    · obtain ⟨d, hd, honce⟩ := hp.answer hr _
      obtain rfl := Except.ok.inj (hd.symm.trans h)
      exact honce hg
    · rw [hd.unheld.2] at hr
      cases hr
  | elsewhere h => exact h.once hc

/-- A full connect that was started. -/
theorem fullConnectAsync_pending {portal : Option CStr} {lun : Int} {cb : Callback} {data : Nat}
    (hfresh : Fresh c) (h : c.fullConnectAsync portal lun cb data = (0, c')) :
    Pending c.world.brk cb data c' := by
  unfold fullConnectAsync at h
  dsimp only at h
  set c₁ := c.modify _ with hc₁
  rcases hm : c₁.malloc with ⟨ok, d⟩
  have hbrk : d.world.brk = c.world.brk := by
    obtain rfl : c₁.malloc.2 = d := by rw [hm]
    unfold malloc
    rw [World.malloc_eq]
    rfl
  obtain ⟨_, hcalls, hrequests⟩ := malloc_sameTasks hm
  simp only [hm] at h
  split at h
  · cases congrArg Prod.fst h
  · set t : ConnectTask := { cb, lun, numUas := 0, privateData := data } with ht
    set e := setConnectTask { d with world := { d.world with brk := d.world.brk + 1 } }
      d.world.brk (some t) with he
    have hlive : e.connectTasks d.world.brk = some t := Function.update_self ..
    rcases hc : e.connectAsync (portal.getD e.world.iscsi.portal) .connectCb d.world.brk
      with ⟨r, f⟩
    obtain ⟨⟨htasks', hcalls', hrequests'⟩, hsocket⟩ := connectAsync_sameTasks hc
    simp only [hc] at h
    split at h
    · cases congrArg Prod.fst h
    · next hr =>
      obtain rfl : f = c' := congrArg Prod.snd h
      rw [← hbrk]
      refine ⟨⟨t, by rw [htasks', hlive], rfl, rfl⟩, ?_, .inl ⟨hsocket (not_not.1 hr), ?_⟩⟩
      · unfold callsOf
        rw [hcalls', show e.calls = c.calls from hcalls, List.filter_eq_nil_iff]
        intro call hmem heq
        have hlt := hfresh.calls call hmem
        rw [beq_iff_eq, hbrk] at heq
        exact absurd heq (Nat.ne_of_lt hlt)
      · unfold requestsOf
        rw [hrequests', show e.requests = c.requests from hrequests, List.filter_eq_nil_iff]
        intro r hmem heq
        have hlt := hfresh.requests r hmem
        rw [beq_iff_eq, hbrk] at heq
        exact absurd heq (Nat.ne_of_lt hlt)

/-- **A full connect completes once.** In every state that a run reaches after an
`iscsi_full_connect_async` that returned 0, in which no redirect leads to an address that cannot
be connected to, either the callback was called exactly once and the connect task was freed after
that, or the callback was not called and exactly one party holds the connect task; and whatever
the socket reports or the request is answered, nothing that was freed is used. -/
theorem fullConnectAsync_once {c₀ : Conn} {portal : Option CStr} {lun : Int} {cb : Callback}
    {data : Nat} (hfresh : Fresh c₀) (h : c₀.fullConnectAsync portal lun cb data = (0, c))
    (hrun : GoodRun (ConnectStep c₀.world.brk) ConnectGood c c') :
    Once c₀.world.brk cb data c' ∧
      (c'.SocketHolds c₀.world.brk → ∀ status, ∃ d, c'.socketStatus status = .ok d) ∧
      ∀ r ∈ c'.requestsOf c₀.world.brk, ∀ reply, ∃ d, c'.answer r reply = .ok d := by
  have honce : Once c₀.world.brk cb data c' :=
    Run.invariant hrun (.inl (fullConnectAsync_pending hfresh h))
      fun _ _ _ hc hs => hs.1.once hs.2 hc
  refine ⟨honce, fun hs status => ?_, fun r hr reply => ?_⟩
  · rcases honce with hp | hd
    · obtain ⟨d, hd, _⟩ := hp.socketStatus hs status
      exact ⟨d, hd⟩
    · exact absurd hs hd.unheld.1
  · rcases honce with hp | hd
    · obtain ⟨d, hd, _⟩ := hp.answer hr reply
      exact ⟨d, hd⟩
    · rw [hd.unheld.2] at hr
      cases hr

/-- A full connect of a context whose `getaddrinfo` has the given outcomes. -/
def connecting (resolves : List Bool) : Conn :=
  ((({ world := { iscsi := { portal := [0x70] } }, resolves } : Conn).fullConnectAsync none 1
    (.user 0) 7).2)

/-- A socket that fails: the callback is called once. -/
theorem fullConnectAsync_once_one :
    ∃ d, (connecting []).socketStatus scsiStatusError = .ok d ∧ Once 0 (.user 0) 7 d ∧
      (d.SocketHolds 0 → ∀ status, ∃ e, d.socketStatus status = .ok e) ∧
      ∀ r ∈ d.requestsOf 0, ∀ reply, ∃ e, d.answer r reply = .ok e :=
  ⟨_, rfl, fullConnectAsync_once
    (show Fresh { world := { iscsi := { portal := [0x70] } } } from ⟨by simp, by simp⟩) rfl
    (Run.single (a := .socket scsiStatusError) ⟨.socket (c := connecting []) rfl rfl, trivial⟩)⟩

/-- The target redirects the login to an address that cannot be resolved: the connect task is
freed, and its callback was not called and will not be. -/
theorem redirect_drops_callback :
    ∃ d e, (connecting [true, false]).socketStatus scsiStatusGood = .ok d ∧
      (d.modify fun iscsi => { iscsi with targetAddress := [0x74] }).answer
        { cb := .loginCb, privateData := 0 } { status := scsiStatusRedirect } = .ok e ∧
      e.connectTasks 0 = none ∧ e.callsOf 0 = [] ∧ e.requestsOf 0 = [] ∧
      ¬ Once 0 (.user 0) 7 e := by
  refine ⟨_, _, rfl, rfl, rfl, rfl, rfl, ?_⟩
  rintro (hp | hd)
  · obtain ⟨t, ht, _⟩ := hp.live
    cases ht
  · obtain ⟨status, hcalled⟩ := hd.called
    cases hcalled

end Libiscsi.Conn
