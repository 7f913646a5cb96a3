import Libiscsi.WriteSpec

/-!
# The events a context waits for

`iscsi_tcp_which_events` (`lib/socket.c`) tells the application what to poll for. It looks at the
gates of `iscsi_write_to_socket` from outside. Where it does not ask for `POLLOUT` a call would send
nothing (`iscsiWriteToSocket_idle`), and after a call it asks for it exactly when a PDU is left that
the socket did not take to its end (`iscsiTcpWhichEvents_write`), so that an event loop neither
stalls nor spins.
-/

namespace Libiscsi

/-- The events of `poll`. -/
structure PollEvents where
  pollin : Bool := false
  pollout : Bool := false
  deriving DecidableEq, Repr

/-- There is a PDU that may be sent: one that has been taken, or the head of `outqueue` if it has
room in the window or is immediate, and the socket is not corked. -/
def World.sendable (w : World) : Res Bool :=
  match w.iscsi.outqueueCurrent, w.iscsi.outqueue with
  | some _, _ => .ok true
  | none, [] => .ok false
  | none, a :: _ =>
    if w.iscsi.isCorked then .ok false
    else do
      let pdu ← w.deref a
      .ok (iscsiSerial32Compare pdu.cmdsn w.iscsi.maxcmdsn ≤ 0 ∨ pdu.immediate)

/-- `iscsi_tcp_which_events`. -/
def iscsiTcpWhichEvents (w : World) : Res PollEvents :=
  if w.iscsi.pendingReconnect ∧ ¬w.olds.isEmpty ∧ w.now < w.iscsi.nextReconnect then .ok {}
  else do
    let sendable ← w.sendable
    .ok { pollin := w.iscsi.isConnected, pollout := !w.iscsi.isConnected || sendable }

section
variable {w w' : World} {a : Addr} {rest : List Addr} {r : Option Int}

theorem World.sendable_head (hcur : w.iscsi.outqueueCurrent = none)
    (hq : w.iscsi.outqueue = a :: rest) : w.sendable =
      if w.iscsi.isCorked then .ok false
      else w.deref a >>= fun pdu =>
        .ok (decide (iscsiSerial32Compare pdu.cmdsn w.iscsi.maxcmdsn ≤ 0 ∨ pdu.immediate)) := by
  unfold World.sendable
  rw [hcur, hq]

/-- The head of the queue is held back where no `POLLOUT` is asked for. -/
theorem takeHead_held (hcur : w.iscsi.outqueueCurrent = none) (hq : w.iscsi.outqueue = a :: rest)
    (h : w.sendable = .ok false) : takeHead w a = .ok (some 0, w) := by
  rw [World.sendable_head hcur hq] at h
  unfold takeHead
  split at h
  · rename_i hcork
    rw [if_pos hcork]
  · rename_i hcork
    rw [if_neg hcork]
    obtain ⟨pdu, hpdu, hgate⟩ := Outcome.bind_eq_ok.1 h
    have hgate := of_decide_eq_false (Except.ok.inj hgate)
    rw [hpdu, Outcome.ok_bind, if_pos]
    push Not at hgate
    exact hgate

/-- A call that returns 0 with the head of the queue held it back. -/
theorem sendable_of_takeHead (hcur : w.iscsi.outqueueCurrent = none)
    (hq : w.iscsi.outqueue = a :: rest) (h : takeHead w a = .ok (some 0, w')) :
    w' = w ∧ w.sendable = .ok false := by
  rw [World.sendable_head hcur hq]
  unfold takeHead at h
  split at h
  · rename_i hcork
    exact ⟨(Prod.mk.inj (Except.ok.inj h)).2.symm, if_pos hcork⟩
  rename_i hcork
  rw [if_neg hcork]
  obtain ⟨pdu, hpdu, h⟩ := Outcome.bind_eq_ok.1 h
  rw [hpdu, Outcome.ok_bind]
  split at h
  · rename_i hgate
    refine ⟨(Prod.mk.inj (Except.ok.inj h)).2.symm, congrArg Except.ok (decide_eq_false ?_)⟩
    push Not
    exact hgate
  split at h
  · have hret := (Prod.mk.inj (Except.ok.inj h)).1
    cases hret
  -- the PDU is taken, or its header has no room for the digest
  simp only at h
  split at h
  · have hret := (Prod.mk.inj (Except.ok.inj h)).1
    cases hret
  · obtain ⟨_, -, h⟩ := Outcome.bind_eq_ok.1 h
    have hret := (Prod.mk.inj (Except.ok.inj h)).1
    cases hret

/-- What is sendable when the loop stops with 0 is a PDU that the socket did not take to its end. -/
theorem writeTurn_stop (h : writeTurn w = .ok (some 0, w')) :
    w'.sendable = .ok w'.iscsi.outqueueCurrent.isSome := by
  have hsending : ∀ {v : World} {b : Addr}, v.iscsi.outqueueCurrent = some b →
      writeCurrent v b = .ok (some 0, w') → w'.sendable = .ok w'.iscsi.outqueueCurrent.isSome := by
    intro v b hb hc
    obtain ⟨s, -, hs⟩ | ⟨hnone, -⟩ := writeCurrent_cases hc
    · unfold World.sendable
      rw [hs.iscsi, hb]
      rfl
    · cases hnone
  unfold writeTurn at h
  rcases hcur : w.iscsi.outqueueCurrent with _ | a
  · rcases hq : w.iscsi.outqueue with _ | ⟨a, rest⟩
    · rw [hcur, hq] at h
      obtain ⟨-, rfl⟩ := Prod.mk.inj (Except.ok.inj h)
      unfold World.sendable
      rw [hcur, hq]
      rfl
    · rw [hcur, hq] at h
      obtain ⟨s, hs, ht⟩ | ⟨w₁, ht, hc⟩ := andThen_eq_ok h
      · obtain rfl := Option.some.inj hs
        obtain ⟨rfl, hheld⟩ := sendable_of_takeHead hcur hq ht
        rw [hheld, hcur]
        rfl
      · exact hsending (takeHead_current ht) hc
  · rw [hcur] at h
    exact hsending hcur h

theorem writeLoop_stop : ∀ {fuel : Nat} {w : World}, writeLoop fuel w = .ok (0, w') →
    w'.sendable = .ok w'.iscsi.outqueueCurrent.isSome
  | 0, _, h => by cases h
  | fuel + 1, w, h => by
    unfold writeLoop at h
    obtain ⟨⟨s, w₁⟩, hturn, h⟩ := Outcome.bind_eq_ok.1 h
    cases s with
    | some s =>
      obtain ⟨rfl, rfl⟩ := Prod.mk.inj (Except.ok.inj h)
      exact writeTurn_stop hturn
    | none => exact writeLoop_stop h

end

/-- **After a call of `iscsi_write_to_socket` that returned 0**, a connected context asks for
`POLLOUT` exactly when a PDU is left that has been taken and not sent to its end: nothing else that
may be sent is left, and nothing that may not be sent keeps the application awake. -/
theorem iscsiTcpWhichEvents_write {w w' : World} (h : iscsiWriteToSocket w = .ok (0, w'))
    (hconn : w'.iscsi.isConnected = true)
    (hnow : ¬(w'.iscsi.pendingReconnect ∧ ¬w'.olds.isEmpty ∧ w'.now < w'.iscsi.nextReconnect)) :
    iscsiTcpWhichEvents w' =
      .ok { pollin := true, pollout := w'.iscsi.outqueueCurrent.isSome } := by
  unfold iscsiWriteToSocket at h
  split at h
  · have hret := (Prod.mk.inj (Except.ok.inj h)).1
    cases hret
  · unfold iscsiTcpWhichEvents
    rw [if_neg hnow, writeLoop_stop h, hconn]
    rfl

/-- The socket takes nothing of the PDU that is queued. -/
theorem iscsiTcpWhichEvents_write_again : ∃ w',
    iscsiWriteToSocket { iscsi := { fd := 3, isConnected := true, outqueue := [0] }
                         pdus := fun _ => some { outdata := List.replicate 48 0 } } = .ok (0, w') ∧
      iscsiTcpWhichEvents w' = .ok { pollin := true, pollout := true } :=
  ⟨_, rfl, iscsiTcpWhichEvents_write
    (w := { iscsi := { fd := 3, isConnected := true, outqueue := [0] }
            pdus := fun _ => some { outdata := List.replicate 48 0 } }) rfl rfl (by decide)⟩

/-- **A context that does not ask for `POLLOUT`** has nothing to write: a call changes nothing and
returns 0. -/
theorem iscsiWriteToSocket_idle {w : World} {events : PollEvents}
    (h : iscsiTcpWhichEvents w = .ok events) (hout : events.pollout = false)
    (hnow : ¬(w.iscsi.pendingReconnect ∧ ¬w.olds.isEmpty ∧ w.now < w.iscsi.nextReconnect))
    (hfd : w.iscsi.fd ≠ -1) : iscsiWriteToSocket w = .ok (0, w) := by
  unfold iscsiTcpWhichEvents at h
  rw [if_neg hnow] at h
  obtain ⟨sendable, hs, h⟩ := Outcome.bind_eq_ok.1 h
  obtain rfl := Except.ok.inj h
  obtain ⟨-, rfl⟩ := Bool.or_eq_false_iff.1 hout
  have hturn : writeTurn w = .ok (some 0, w) := by
    unfold writeTurn
    rcases hcur : w.iscsi.outqueueCurrent with _ | a
    · rcases hq : w.iscsi.outqueue with _ | ⟨a, rest⟩
      · rfl
      · unfold andThen
        simp only [takeHead_held hcur hq hs]
        rfl
    · unfold World.sendable at hs
      rw [hcur] at hs
      cases hs
  unfold iscsiWriteToSocket
  rw [if_neg hfd, writeLoop, hturn]
  rfl

/-- The head of the queue is past the window. -/
theorem iscsiWriteToSocket_idle_window :
    iscsiWriteToSocket { iscsi := { fd := 3, isConnected := true, outqueue := [0] }
                         pdus := fun _ => some { cmdsn := 1 } } =
      .ok (0, { iscsi := { fd := 3, isConnected := true, outqueue := [0] }
                pdus := fun _ => some { cmdsn := 1 } }) :=
  iscsiWriteToSocket_idle (w := { iscsi := { fd := 3, isConnected := true, outqueue := [0] }
                                  pdus := fun _ => some { cmdsn := 1 } })
    rfl rfl (by decide) (by decide)

end Libiscsi
