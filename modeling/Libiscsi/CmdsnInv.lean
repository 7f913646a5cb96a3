import Libiscsi.QueueSpec
import Libiscsi.ServiceSpec

/-!
# The CmdSNs of the queue

The commands of `outqueue` carry consecutive CmdSNs: `outqueue` is a numbered queue
(`Numbering.Windowed`) in which commands are numbered, immediate PDUs lead and DATA-OUTs trail,
counted from the CmdSN of the last command that was taken (`CmdsnInv`). This module proves that
the invariant is kept by the steps that `drv->service` may take in the middle of a submission:
PDUs are taken and sent, and what has expired is unlinked and completed (`ServiceStep`).
-/

namespace Libiscsi

open Numbering

/-! ## The queue as a numbered queue -/

/-- The role of a PDU in `outqueue`. -/
def Pdu.role (p : Pdu) : Role :=
  if p.immediate then .leading
  else if p.opcode = iscsiPduDataOut then .trailing
  else .numbered

theorem Pdu.role_eq_numbered {p : Pdu} : p.role = .numbered ↔ p.isCommand = true := by
  unfold role isCommand
  by_cases hi : p.immediate <;> by_cases ho : p.opcode = iscsiPduDataOut <;> simp [hi, ho]

theorem Pdu.role_eq_leading {p : Pdu} : p.role = .leading ↔ p.immediate = true := by
  unfold role
  by_cases hi : p.immediate <;> by_cases ho : p.opcode = iscsiPduDataOut <;> simp [hi, ho]

theorem Pdu.Renumbered.role {p q : Pdu} (h : p.Renumbered q) : q.role = p.role := by
  simp [Pdu.role, h.immediate, h.opcode]

theorem Pdu.TakenAs.role {c : Context} {p q : Pdu} (h : p.TakenAs c q) : q.role = p.role := by
  unfold Pdu.role Pdu.immediate Pdu.opcode
  rw [h.spec.2.2 0 (by omega)]

namespace World

/-- The role of the PDU at an address. -/
def roleAt (w : World) (a : Addr) : Role :=
  match w.pdus a with
  | some p => p.role
  | none => .leading

/-- The CmdSN of the PDU at an address, counted from `base`. -/
def offAt (w : World) (base : UInt32) (a : Addr) : Nat :=
  match w.pdus a with
  | some p => (p.cmdsn - base).toNat
  | none => 0

/-- The number of commands in `outqueue`. -/
def commandsQueued (w : World) : Nat := count w.roleAt w.iscsi.outqueue

variable {w w' : World} {a : Addr} {p : Pdu}

theorem roleAt_of_some (h : w.pdus a = some p) : w.roleAt a = p.role := by simp [roleAt, h]

theorem offAt_of_some (h : w.pdus a = some p) (base : UInt32) :
    w.offAt base a = (p.cmdsn - base).toNat := by simp [offAt, h]

theorem roleAt_congr (h : w'.pdus a = w.pdus a) : w'.roleAt a = w.roleAt a := by
  simp [roleAt, h]

theorem offAt_congr (h : w'.pdus a = w.pdus a) (base : UInt32) :
    w'.offAt base a = w.offAt base a := by simp [offAt, h]

/-- What counts of a PDU while it is queued. -/
def keyAt (w : World) (a : Addr) : Option (UInt32 × List UInt8 × Nat) :=
  (w.pdus a).map fun p => (p.cmdsn, p.outdata, p.scsiTimeout)

theorem keyAt_congr (h : w'.pdus a = w.pdus a) : w'.keyAt a = w.keyAt a := by
  simp [keyAt, h]

/-- A PDU that is queued is found with the same CmdSN, bytes and timeout. -/
theorem keyAt_get (h : w'.keyAt a = w.keyAt a) (hp : w.pdus a = some p) :
    ∃ q, w'.pdus a = some q ∧ q.cmdsn = p.cmdsn ∧ q.outdata = p.outdata ∧
      q.scsiTimeout = p.scsiTimeout := by
  unfold keyAt at h
  rw [hp] at h
  rcases hq : w'.pdus a with _ | q
  · rw [hq] at h
    cases h
  · rw [hq] at h
    obtain ⟨h₁, h⟩ := Prod.mk.inj (Option.some.inj h)
    exact ⟨q, rfl, h₁, Prod.mk.inj h⟩

theorem roleAt_key (h : w'.keyAt a = w.keyAt a) : w'.roleAt a = w.roleAt a := by
  rcases hp : w.pdus a with _ | p
  · have : w'.pdus a = none := by
      unfold keyAt at h
      rw [hp] at h
      simpa using h
    simp [roleAt, hp, this]
  · obtain ⟨q, hq, _, hout, _⟩ := keyAt_get h hp
    rw [roleAt_of_some hq, roleAt_of_some hp]
    unfold Pdu.role Pdu.immediate Pdu.opcode
    rw [hout]

theorem offAt_key (h : w'.keyAt a = w.keyAt a) (base : UInt32) :
    w'.offAt base a = w.offAt base a := by
  rcases hp : w.pdus a with _ | p
  · have : w'.pdus a = none := by
      unfold keyAt at h
      rw [hp] at h
      simpa using h
    simp [offAt, hp, this]
  · obtain ⟨q, hq, hsn, _, _⟩ := keyAt_get h hp
    simp [offAt, hp, hq, hsn]

theorem isCommandAt_eq (w : World) (a : Addr) (h : (w.pdus a).isSome) :
    w.isCommandAt a = decide (w.roleAt a = .numbered) := by
  obtain ⟨p, hp⟩ := Option.isSome_iff_exists.1 h
  simp [isCommandAt, roleAt, hp, Pdu.role_eq_numbered]

end World

/-- The CmdSNs in the headers of the commands that were taken. -/
def takenCmdsns (trace : List Event) : List UInt32 :=
  trace.filterMap fun
    | .taken _ p => if p.isCommand then some (scsiGetUint32 p.outdata 24) else none
    | _ => none

@[simp] theorem takenCmdsns_append (l l' : List Event) :
    takenCmdsns (l ++ l') = takenCmdsns l ++ takenCmdsns l' := List.filterMap_append

/-! ## The invariant -/

/-- A PDU that is queued has a whole header, which for a command carries its CmdSN. -/
structure Pdu.Sendable (c : Context) (p : Pdu) : Prop where
  size : iscsiHeaderSize c.headerDigest ≤ p.outdata.length
  field : p.isCommand → scsiGetUint32 p.outdata 24 = p.cmdsn

theorem Pdu.Renumbered.sendable {c : Context} {p q : Pdu} (h : p.Renumbered q)
    (hp : p.Sendable c) : q.Sendable c := by
  rcases h with rfl | h
  · exact hp
  · have := iscsiHeaderSize_ge c.headerDigest
    have hsize := hp.size
    rw [h]
    exact ⟨by simpa [Pdu.setCmdsn, Pdu.setField] using hp.size,
      fun _ => scsiGetUint32_set (by omega)⟩

/-- The PDU at `a` is the last command: it is the last one in `outqueue` and has not expired, or
it has left `outqueue` as the last one that was taken, and no other follows. -/
def LastCommand (base : UInt32) (w : World) (a : Addr) : Prop :=
  a < w.brk ∧ ((a ∈ w.iscsi.outqueue ∧ w.roleAt a = .numbered ∧ w.offAt base a = w.commandsQueued ∧
      ∀ p, w.pdus a = some p → p.expired w.now = false) ∨
    a ∉ w.iscsi.outqueue ∧ w.commandsQueued = 0 ∧ ∀ p, w.pdus a = some p → p.cmdsn = base)

/-- The queues are well formed, and the commands of `outqueue` carry the CmdSNs that follow
`base`. -/
structure QueueInv (base : UInt32) (w : World) : Prop where
  olds : w.olds = []
  nodup : (w.iscsi.outqueue ++ w.iscsi.waitpdu).Nodup
  below : ∀ a ∈ w.iscsi.addrs, a < w.brk
  current : ∀ a, w.iscsi.outqueueCurrent = some a → a ∉ w.iscsi.outqueue
  sendable : ∀ a ∈ w.iscsi.outqueue, ∃ p, w.pdus a = some p ∧ p.Sendable w.iscsi
  windowed : Windowed w.roleAt (w.offAt base) 0 w.iscsi.outqueue
  bound : w.commandsQueued < 2 ^ 31 - 1

/-- The invariant: `base` is the CmdSN of the last command that was taken, and the context hands
out the one after the last of the queue. `last` is the command that is being submitted, if one
is. -/
structure CmdsnInv (base : UInt32) (last : Option Addr) (w : World) : Prop
    extends QueueInv base w where
  cmdsn : w.iscsi.cmdsn = base + 1 + UInt32.ofNat w.commandsQueued
  isLast : ∀ a ∈ last, LastCommand base w a

/-- The `k` serial numbers that follow a number. -/
def following (n : UInt32) (k : Nat) : List UInt32 :=
  (List.range' 1 k).map fun i => n + UInt32.ofNat i

theorem following_add (n : UInt32) (k k' : Nat) :
    following n (k + k') = following n k ++ following (n + UInt32.ofNat k) k' := by
  have hsplit : List.range' 1 (k + k') = List.range' 1 k ++ (List.range' 1 k').map (k + ·) := by
    rw [List.map_add_range', ← List.range'_append_1, Nat.add_comm 1 k]
  unfold following
  rw [hsplit, List.map_append, List.map_map]
  congr 1
  refine List.map_congr_left fun i _ => ?_
  simp [UInt32.ofNat_add, UInt32.add_assoc]

/-- A run of the program went from `w` to `w'`: the commands that were taken have the CmdSNs that
follow `base`, and the invariant holds. -/
def Advances (base : UInt32) (last : Option Addr) (w w' : World) : Prop :=
  ∃ k, takenCmdsns w'.trace = takenCmdsns w.trace ++ following base k ∧
    CmdsnInv (base + UInt32.ofNat k) last w'

namespace Advances

variable {base : UInt32} {last : Option Addr} {w w' w'' : World}

/-- Nothing is taken. -/
theorem of_inv (ht : takenCmdsns w'.trace = takenCmdsns w.trace) (h : CmdsnInv base last w') :
    Advances base last w w' :=
  ⟨0, by simp [ht, following], by simpa using h⟩

/-- One command is taken. -/
theorem of_taken (ht : takenCmdsns w'.trace = takenCmdsns w.trace ++ [base + 1])
    (h : CmdsnInv (base + 1) last w') : Advances base last w w' :=
  ⟨1, by simp [ht, following], by simpa using h⟩

/-- A run, and what follows it from wherever it ended. -/
theorem bind (h : Advances base last w w') {last' : Option Addr}
    (hf : ∀ base', CmdsnInv base' last w' → Advances base' last' w' w'') :
    Advances base last' w w'' := by
  obtain ⟨k, ht, hi⟩ := h
  obtain ⟨k', ht', hi'⟩ := hf _ hi
  refine ⟨k + k', ?_, ?_⟩
  · rw [ht', ht, following_add, List.append_assoc]
  · rw [UInt32.ofNat_add, ← UInt32.add_assoc]
    exact hi'

/-- A run that starts with a step that takes nothing. -/
theorem of_quiet (ht : takenCmdsns w'.trace = takenCmdsns w.trace)
    (h : Advances base last w' w'') : Advances base last w w'' := by
  obtain ⟨k, ht', hi⟩ := h
  exact ⟨k, by rw [ht', ht], hi⟩

/-- The command need not be followed any more. -/
theorem forget (h : Advances base last w w') : Advances base none w w' := by
  obtain ⟨k, ht, hi⟩ := h
  exact ⟨k, ht, hi.toQueueInv, hi.cmdsn, by simp⟩

end Advances

/-! ## What does not concern the queue -/

/-- The steps that leave `outqueue` and its PDUs alone. -/
structure QuietQueue (w w' : World) : Prop where
  olds : w'.olds = w.olds
  outqueue : w'.iscsi.outqueue = w.iscsi.outqueue
  waitpdu : w'.iscsi.waitpdu.Sublist w.iscsi.waitpdu
  current : w'.iscsi.outqueueCurrent = w.iscsi.outqueueCurrent ∨
    w'.iscsi.outqueueCurrent = none
  headerDigest : w'.iscsi.headerDigest = w.iscsi.headerDigest
  brk : w.brk ≤ w'.brk
  queued : ∀ a ∈ w.iscsi.outqueue, w'.keyAt a = w.keyAt a
  taken : takenCmdsns w'.trace = takenCmdsns w.trace

/-- The steps that leave the CmdSN of the context alone as well. -/
structure Quiet (w w' : World) : Prop extends QuietQueue w w' where
  cmdsn : w'.iscsi.cmdsn = w.iscsi.cmdsn

/-- No PDU gets another CmdSN, and no time passes. -/
structure SameNumbers (w w' : World) : Prop where
  now : w'.now = w.now
  cmdsn : ∀ a q, w'.pdus a = some q → ∃ p, w.pdus a = some p ∧ q.cmdsn = p.cmdsn

section
variable {w w' w'' : World}

protected theorem QuietQueue.refl (w : World) : QuietQueue w w where
  olds := rfl
  outqueue := rfl
  waitpdu := .refl _
  current := .inl rfl
  headerDigest := rfl
  brk := le_refl _
  queued _ _ := rfl
  taken := rfl

protected theorem QuietQueue.trans (h : QuietQueue w w') (h' : QuietQueue w' w'') :
    QuietQueue w w'' where
  olds := h'.olds.trans h.olds
  outqueue := h'.outqueue.trans h.outqueue
  waitpdu := h'.waitpdu.trans h.waitpdu
  current := by
    rcases h'.current with hc | hc
    · rw [hc]
      exact h.current
    · exact .inr hc
  headerDigest := h'.headerDigest.trans h.headerDigest
  brk := h.brk.trans h'.brk
  queued a ha := (h'.queued a (by rw [h.outqueue]; exact ha)).trans (h.queued a ha)
  taken := h'.taken.trans h.taken

protected theorem Quiet.refl (w : World) : Quiet w w := ⟨.refl w, rfl⟩

protected theorem Quiet.trans (h : Quiet w w') (h' : Quiet w' w'') : Quiet w w'' :=
  ⟨h.toQuietQueue.trans h'.toQuietQueue, h'.cmdsn.trans h.cmdsn⟩

theorem QuietQueue.commandsQueued (h : QuietQueue w w') :
    w'.commandsQueued = w.commandsQueued := by
  unfold World.commandsQueued
  rw [h.outqueue]
  exact count_congr fun a ha => World.roleAt_key (h.queued a ha)

end

section
variable {base : UInt32} {last : Option Addr} {w w' : World} {a : Addr}

theorem QueueInv.quiet (hi : QueueInv base w) (h : QuietQueue w w') : QueueInv base w' where
  olds := h.olds.trans hi.olds
  nodup := by
    rw [h.outqueue]
    exact hi.nodup.sublist (List.Sublist.append (.refl _) h.waitpdu)
  below b hb := by
    refine lt_of_lt_of_le (hi.below b ?_) h.brk
    simp only [Context.addrs, List.mem_append, Option.mem_toList] at hb ⊢
    rcases hb with (hb | hb) | hb
    · exact .inl (.inl (by rwa [h.outqueue] at hb))
    · exact .inl (.inr (h.waitpdu.subset hb))
    · rcases h.current with hc | hc
      · exact .inr (by rwa [hc] at hb)
      · rw [hc] at hb
        cases hb
  current b hb := by
    rw [h.outqueue]
    rcases h.current with hc | hc
    · exact hi.current b (by rwa [hc] at hb)
    · rw [hc] at hb
      cases hb
  sendable b hb := by
    rw [h.outqueue] at hb
    obtain ⟨p, hp, hs⟩ := hi.sendable b hb
    obtain ⟨q, hq, hsn, hout, _⟩ := World.keyAt_get (h.queued b hb) hp
    refine ⟨q, hq, by rw [h.headerDigest, hout]; exact hs.size, fun hcmd => ?_⟩
    rw [hout, hsn]
    exact hs.field (by simpa [Pdu.isCommand, Pdu.immediate, Pdu.opcode, hout] using hcmd)
  windowed := by
    rw [h.outqueue]
    exact hi.windowed.congr (fun b hb => World.roleAt_key (h.queued b hb))
      fun b hb => World.offAt_key (h.queued b hb) base
  bound := by rw [h.commandsQueued]; exact hi.bound

/-- The last command stays the last while its CmdSN stays and no time passes. -/
theorem LastCommand.quiet (hl : LastCommand base w a) (h : QuietQueue w w')
    (hnow : w'.now = w.now)
    (hn : ∀ q, w'.pdus a = some q → ∃ p, w.pdus a = some p ∧ q.cmdsn = p.cmdsn) :
    LastCommand base w' a := by
  obtain ⟨hlt, ⟨hmem, hrole, hoff, hexp⟩ | ⟨hmem, hcount, hsn⟩⟩ := hl
  · have hkey := h.queued a hmem
    refine ⟨lt_of_lt_of_le hlt h.brk, .inl ⟨by rw [h.outqueue]; exact hmem,
      by rw [World.roleAt_key hkey]; exact hrole, ?_, fun q hq => ?_⟩⟩
    · rw [World.offAt_key hkey, hoff, h.commandsQueued]
    · obtain ⟨p, hp, _, _, ht⟩ := World.keyAt_get hkey.symm hq
      rw [hnow, Pdu.expired, ← ht]
      exact hexp p hp
  · refine ⟨lt_of_lt_of_le hlt h.brk,
      .inr ⟨by rw [h.outqueue]; exact hmem, by rw [h.commandsQueued]; exact hcount,
        fun q hq => ?_⟩⟩
    obtain ⟨p, hp, hqp⟩ := hn q hq
    rw [hqp]
    exact hsn p hp

theorem CmdsnInv.quiet (hi : CmdsnInv base last w) (h : Quiet w w') (hn : SameNumbers w w') :
    CmdsnInv base last w' where
  toQueueInv := hi.toQueueInv.quiet h.toQuietQueue
  cmdsn := by rw [h.cmdsn, h.commandsQueued]; exact hi.cmdsn
  isLast b hb := (hi.isLast b hb).quiet h.toQuietQueue hn.now (hn.cmdsn b)

/-- A quiet step of which nothing is asked about a command being submitted. -/
theorem CmdsnInv.quiet_none (hi : CmdsnInv base none w) (h : Quiet w w') :
    CmdsnInv base none w' where
  toQueueInv := hi.toQueueInv.quiet h.toQuietQueue
  cmdsn := by rw [h.cmdsn, h.commandsQueued]; exact hi.cmdsn
  isLast b hb := by simp at hb

/-! ## Callbacks and release -/

/-- The events of a call are no `taken` events. -/
theorem takenCmdsns_callbackEvents (p : Pdu) (a : Addr) (status : Status) :
    takenCmdsns (p.callbackEvents a status) = [] := by
  unfold Pdu.callbackEvents
  split
  · rfl
  · split <;> rfl

theorem callbackContext_headerDigest (p : Pdu) (c : Context) :
    (p.callbackContext c).headerDigest = c.headerDigest := by
  unfold Pdu.callbackContext; split <;> rfl

theorem quiet_called (w : World) (a : Addr) (p : Pdu) (status : Status) :
    Quiet w (w.called a p status) where
  olds := rfl
  outqueue := by simp [World.called]
  waitpdu := by simp [World.called]
  current := .inl (by simp [World.called])
  cmdsn := by simp [World.called]
  headerDigest := callbackContext_headerDigest p w.iscsi
  brk := le_refl _
  queued _ _ := rfl
  taken := by simp [World.called, takenCmdsns_callbackEvents]

theorem sameNumbers_called (w : World) (a : Addr) (p : Pdu) (status : Status) :
    SameNumbers w (w.called a p status) :=
  ⟨rfl, fun _ q hq => ⟨q, hq, rfl⟩⟩

theorem quiet_release (ha : a ∉ w.iscsi.outqueue) : Quiet w (w.release a) where
  olds := rfl
  outqueue := rfl
  waitpdu := .refl _
  current := by
    by_cases h : w.iscsi.outqueueCurrent = some a
    · exact .inr (by simp [World.release, h])
    · exact .inl (by simp [World.release, h])
  cmdsn := rfl
  headerDigest := rfl
  brk := le_refl _
  queued b hb := World.keyAt_congr (Function.update_of_ne (ne_of_mem_of_not_mem hb ha) ..)
  taken := by simp [World.release, takenCmdsns]

theorem sameNumbers_release (w : World) (a : Addr) : SameNumbers w (w.release a) := by
  refine ⟨rfl, fun b q hq => ⟨q, ?_, rfl⟩⟩
  by_cases hb : b = a
  · subst hb
    simp [World.release] at hq
  · simpa [World.release, Function.update_of_ne hb] using hq

theorem SameNumbers.trans {w'' : World} (h : SameNumbers w w') (h' : SameNumbers w' w'') :
    SameNumbers w w'' := by
  refine ⟨h'.now.trans h.now, fun b r hr => ?_⟩
  obtain ⟨q, hq, hrq⟩ := h'.cmdsn b r hr
  obtain ⟨p, hp, hqp⟩ := h.cmdsn b q hq
  exact ⟨p, hp, hrq.trans hqp⟩

/-- The completion of a PDU that is not in `outqueue`. -/
theorem quiet_completePdu {status : Status} (ha : a ∉ w.iscsi.outqueue)
    (h : completePdu w a status = .ok w') : Quiet w w' ∧ SameNumbers w w' := by
  unfold completePdu at h
  obtain ⟨w₁, h₁, h₂⟩ := Outcome.bind_eq_ok.1 h
  obtain ⟨p, _, rfl⟩ := invokeCallback_called h₁
  obtain ⟨_, rfl⟩ := iscsiFreePdu_eq_ok.1 h₂
  exact ⟨(quiet_called w a p status).trans (quiet_release (by simpa [World.called] using ha)),
    (sameNumbers_called w a p status).trans (sameNumbers_release _ a)⟩

theorem quiet_completeTmp {tmp : List Addr} {status : Status}
    (hd : ∀ a ∈ tmp, a ∉ w.iscsi.outqueue) (h : completeTmp w tmp status = .ok w') :
    Quiet w w' ∧ SameNumbers w w' := by
  cases tmp with
  | nil =>
    obtain rfl := Except.ok.inj h
    exact ⟨.refl w, rfl, fun _ q hq => ⟨q, hq, rfl⟩⟩
  | cons a tmp => exact quiet_completePdu (hd a (by simp)) h

/-- `waitpdu` gets shorter. -/
theorem quiet_setWaitpdu {l : List Addr} (h : l.Sublist w.iscsi.waitpdu) :
    Quiet w (w.modify (·.setWaitpdu l)) where
  olds := rfl
  outqueue := rfl
  waitpdu := h
  current := .inl rfl
  cmdsn := rfl
  headerDigest := rfl
  brk := le_refl _
  queued _ _ := rfl
  taken := rfl

end

/-! ## The scans -/

/-- A CmdSN that is made smaller by no more than it is ahead. -/
theorem toNat_sub_sub {x base : UInt32} {g : Nat} (h : g ≤ (x - base).toNat) :
    (x - UInt32.ofNat g - base).toNat = (x - base).toNat - g := by
  have := x.toNat_lt
  have := base.toNat_lt
  simp only [UInt32.toNat_sub, UInt32.toNat_ofNat'] at h ⊢
  omega

section
variable {base : UInt32} {last : Option Addr} {w w' : World} {a : Addr}

/-- The number of commands in a queue is a number of 32 bits. -/
theorem UnlinkSpec.iscsi {sel : World → Pdu → Bool}
    (h : UnlinkSpec sel [] w.iscsi.outqueue 0 w w') :
    w'.iscsi = (w.iscsi.setOutqueue (w.iscsi.outqueue.filter fun a => !w.selects sel a)).setCmdsn
      (w.iscsi.cmdsn - w.gapOf sel w.iscsi.outqueue) := by
  rw [h.frame]
  rfl

theorem roleAt_renumbered (h : HeapRenumbered w.pdus w'.pdus) : w'.roleAt = w.roleAt := by
  funext b
  have := h b
  unfold World.roleAt
  revert this
  rcases w.pdus b with _ | p <;> rcases w'.pdus b with _ | q <;> intro this <;> cases this
  · rfl
  · rename_i h
    exact h.role

/-- The commands a scan takes out of a list. -/
theorem gapOf_eq {sel : World → Pdu → Bool} {l : List Addr} (hl : ∀ a ∈ l, (w.pdus a).isSome) :
    w.gapOf sel l = UInt32.ofNat
      (l.countP fun a => w.selects sel a && decide (w.roleAt a = .numbered)) := by
  unfold World.gapOf
  congr 1
  exact List.countP_congr fun a ha => by rw [w.isCommandAt_eq a (hl a ha)]

/-- No more commands are taken out of a list than there are. -/
theorem countP_le_count (sel : Addr → Bool) (role : Addr → Role) (l : List Addr) :
    (l.countP fun a => sel a && decide (role a = .numbered)) ≤ count role l :=
  List.countP_mono_left fun _ _ h => (Bool.and_eq_true_iff.1 h).2

/-- **A scan of `outqueue` renumbers it.** -/
theorem QueueInv.unlink (hi : QueueInv base w) {sel : World → Pdu → Bool}
    (h : UnlinkSpec sel [] w.iscsi.outqueue 0 w w') : QueueInv base w' := by
  have hiscsi := h.iscsi
  have hout : w'.iscsi.outqueue = w.iscsi.outqueue.filter fun a => !w.selects sel a := by
    rw [hiscsi]; rfl
  have hrole := roleAt_renumbered h.heap
  have hlive : ∀ b ∈ w.iscsi.outqueue, (w.pdus b).isSome := fun b hb => by
    obtain ⟨p, hp, _⟩ := hi.sendable b hb
    simp [hp]
  have hsub : w'.iscsi.outqueue.Sublist w.iscsi.outqueue := by
    rw [hout]
    exact List.filter_sublist
  refine ⟨?_, ?_, fun b hb => ?_, fun b hb => ?_, fun b hb => ?_, ?_, ?_⟩
  · rw [h.frame]
    exact hi.olds
  · have hwait : w'.iscsi.waitpdu = w.iscsi.waitpdu := by rw [hiscsi]; rfl
    rw [hwait]
    exact hi.nodup.sublist (List.Sublist.append hsub (.refl _))
  · have hbrk : w'.brk = w.brk := by rw [h.frame]; rfl
    rw [hbrk]
    refine hi.below b ?_
    have hwait : w'.iscsi.waitpdu = w.iscsi.waitpdu := by rw [hiscsi]; rfl
    have hcur : w'.iscsi.outqueueCurrent = w.iscsi.outqueueCurrent := by rw [hiscsi]; rfl
    simp only [Context.addrs, hwait, hcur, List.mem_append] at hb ⊢
    rcases hb with (hb | hb) | hb
    · exact .inl (.inl (hsub.subset hb))
    · exact .inl (.inr hb)
    · exact .inr hb
  · have hcur : w'.iscsi.outqueueCurrent = w.iscsi.outqueueCurrent := by rw [hiscsi]; rfl
    rw [hcur] at hb
    exact fun hm => hi.current b hb (hsub.subset hm)
  · obtain ⟨p, hp, hs⟩ := hi.sendable b (hsub.subset hb)
    obtain ⟨q, hq, hpq⟩ := h.heap.get hp
    have hs' := hpq.sendable hs
    have hd : w'.iscsi.headerDigest = w.iscsi.headerDigest := by rw [hiscsi]; rfl
    exact ⟨q, hq, by rw [hd]; exact hs'.size, hs'.field⟩
  · rw [hout, hrole]
    refine hi.windowed.filter (g := 0) fun l₁ b l₂ hl hb => ?_
    obtain ⟨p, hp, _⟩ := hi.sendable b (hl ▸ by simp)
    obtain ⟨q, hq, hsn⟩ := h.cmdsn l₁ b l₂ p hl hb hp
    have hle : (l₁.countP fun a => w.selects sel a && decide (w.roleAt a = .numbered)) ≤
        (p.cmdsn - base).toNat := by
      have := (hl ▸ hi.windowed).count_le_off
      rw [World.offAt_of_some hp] at this
      have := countP_le_count (w.selects sel) w.roleAt l₁
      omega
    rw [World.offAt_of_some hq, World.offAt_of_some hp, hsn, UInt32.zero_add,
      gapOf_eq fun c hc => hlive c (hl ▸ by simp [hc]), toNat_sub_sub hle]
    omega
  · have : _ = count w.roleAt w.iscsi.outqueue := count_filter (w.selects sel) w.iscsi.outqueue
    have := hi.bound
    unfold World.commandsQueued at this ⊢
    rw [hout, hrole]
    omega

/-- The commands that are left after a scan. -/
theorem commandsQueued_unlink {sel : World → Pdu → Bool}
    (h : UnlinkSpec sel [] w.iscsi.outqueue 0 w w') :
    w'.commandsQueued + (w.iscsi.outqueue.countP fun a =>
      w.selects sel a && decide (w.roleAt a = .numbered)) = w.commandsQueued := by
  have hout : w'.iscsi.outqueue = w.iscsi.outqueue.filter fun a => !w.selects sel a := by
    rw [h.iscsi]; rfl
  unfold World.commandsQueued
  rw [hout, roleAt_renumbered h.heap]
  exact count_filter ..

/-- The last command stays the last if it is not taken out. -/
theorem LastCommand.unlink (hi : QueueInv base w) (hl : LastCommand base w a)
    {sel : World → Pdu → Bool} (h : UnlinkSpec sel [] w.iscsi.outqueue 0 w w')
    (hkeep : ∀ p, w.pdus a = some p → p.expired w.now = false → w.selects sel a = false) :
    LastCommand base w' a := by
  have hout : w'.iscsi.outqueue = w.iscsi.outqueue.filter fun a => !w.selects sel a := by
    rw [h.iscsi]; rfl
  have hnow : w'.now = w.now := by rw [h.frame]; rfl
  have hcount := commandsQueued_unlink h
  have hlive : ∀ b ∈ w.iscsi.outqueue, (w.pdus b).isSome := fun b hb => by
    obtain ⟨p, hp, _⟩ := hi.sendable b hb
    simp [hp]
  have hbrk : w'.brk = w.brk := by rw [h.frame]; rfl
  obtain ⟨hlt, ⟨hmem, hrole, hoff, hexp⟩ | ⟨hmem, hzero, hsn⟩⟩ := hl
  · obtain ⟨p, hp, _⟩ := hi.sendable a hmem
    obtain ⟨q, hq, hpq⟩ := h.heap.get hp
    have hsel := hkeep p hp (hexp p hp)
    refine ⟨by rw [hbrk]; exact hlt,
      .inl ⟨by rw [hout, List.mem_filter]; simp [hmem, hsel], ?_, ?_, fun q' hq' => ?_⟩⟩
    · rw [roleAt_renumbered h.heap, hrole]
    · -- no command stands behind the last one, so all that are taken out stand before it
      obtain ⟨l₁, l₂, hl⟩ := List.append_of_mem hmem
      obtain ⟨q', hq', hsn⟩ := h.cmdsn l₁ a l₂ p hl hsel hp
      have hq : q' = q := Option.some.inj (hq'.symm.trans hq)
      subst hq
      have hw := hl ▸ hi.windowed
      have hoffa := ((Windowed.cons_numbered hrole).1 hw.append_right).1
      have hcl : count w.roleAt w.iscsi.outqueue =
          count w.roleAt l₁ + (count w.roleAt l₂ + 1) := by
        conv_lhs => rw [hl]
        rw [count_append, count_cons_numbered hrole]
      have hzero : count w.roleAt l₂ = 0 := by
        unfold World.commandsQueued at hoff
        omega
      have hl₂ := countP_le_count (w.selects sel) w.roleAt l₂
      have hl₁ := countP_le_count (w.selects sel) w.roleAt l₁
      have hall : (w.iscsi.outqueue.countP fun a =>
            w.selects sel a && decide (w.roleAt a = .numbered)) =
          l₁.countP fun a => w.selects sel a && decide (w.roleAt a = .numbered) := by
        conv_lhs => rw [hl]
        rw [List.countP_append, List.countP_cons_of_neg (by simp [hsel])]
        omega
      rw [World.offAt_of_some hp] at hoff hoffa
      rw [World.offAt_of_some hq', hsn, UInt32.zero_add,
        gapOf_eq fun c hc => hlive c (hl ▸ by simp [hc]), toNat_sub_sub (by omega)]
      omega
    · obtain rfl : q' = q := Option.some.inj (hq'.symm.trans hq)
      rw [hnow, hpq.expired]
      exact hexp p hp
  · have hmem' : a ∉ w'.iscsi.outqueue := fun hm => hmem (by
      rw [hout] at hm
      exact (List.mem_filter.1 hm).1)
    refine ⟨by rw [hbrk]; exact hlt, .inr ⟨hmem', by omega, fun q hq => hsn q ?_⟩⟩
    rw [← h.outside a hmem, hq]

/-- **A scan of `outqueue` keeps the invariant.** -/
theorem CmdsnInv.unlink (hi : CmdsnInv base last w) {sel : World → Pdu → Bool}
    (h : UnlinkSpec sel [] w.iscsi.outqueue 0 w w')
    (hkeep : ∀ a ∈ last, ∀ p, w.pdus a = some p → p.expired w.now = false →
      w.selects sel a = false) : CmdsnInv base last w' where
  toQueueInv := hi.toQueueInv.unlink h
  cmdsn := by
    have hcount := commandsQueued_unlink h
    have hlive : ∀ b ∈ w.iscsi.outqueue, (w.pdus b).isSome := fun b hb => by
      obtain ⟨p, hp, _⟩ := hi.sendable b hb
      simp [hp]
    rw [h.iscsi, Context.setCmdsn_cmdsn, hi.cmdsn, gapOf_eq hlive, ← hcount, UInt32.ofNat_add]
    grind
  isLast a ha := (hi.isLast a ha).unlink hi.toQueueInv h (hkeep a ha)

/-- The scan of `waitpdu` takes PDUs out of it. -/
theorem timeoutWaitpdu_frame {t : Nat} : ∀ {l tmp tmp' : List Addr} {w w' : World},
    timeoutWaitpdu t l tmp w = .ok (tmp', w') →
    (∀ a ∈ tmp', a ∈ tmp ∨ a ∈ l) ∧
      ∃ l', l'.Sublist w.iscsi.waitpdu ∧ w' = w.modify (·.setWaitpdu l')
  | [], tmp, tmp', w, w', h => by
    obtain ⟨rfl, rfl⟩ := Prod.mk.inj (Except.ok.inj h)
    exact ⟨fun a ha => .inl ha, _, .refl _, rfl⟩
  | b :: l, tmp, tmp', w, w', h => by
    have hmem : ∀ {tmp₁ : List Addr}, (∀ a ∈ tmp₁, a ∈ tmp ∨ a = b) →
        (∀ a ∈ tmp', a ∈ tmp₁ ∨ a ∈ l) → ∀ a ∈ tmp', a ∈ tmp ∨ a ∈ b :: l := by
      intro tmp₁ h₁ h₂ a ha
      rcases h₂ a ha with h | h
      · rcases h₁ a h with h | rfl
        · exact .inl h
        · exact .inr (by simp)
      · exact .inr (List.mem_cons_of_mem _ h)
    rw [timeoutWaitpdu] at h
    obtain ⟨p, _, h⟩ := Outcome.bind_eq_ok.1 h
    split at h
    · obtain ⟨busy, _, h⟩ := Outcome.bind_eq_ok.1 h
      split at h
      · obtain ⟨htmp, l', hl', rfl⟩ := timeoutWaitpdu_frame h
        exact ⟨hmem (fun a ha => .inl ha) htmp, l', hl', rfl⟩
      · obtain ⟨waitpdu, hrem, h⟩ := Outcome.bind_eq_ok.1 h
        obtain ⟨htmp, l', hl', rfl⟩ := timeoutWaitpdu_frame h
        refine ⟨hmem (fun a ha => by simpa using ha) htmp, l', hl'.trans ?_, rfl⟩
        rw [World.modify_iscsi, Context.setWaitpdu_waitpdu, (listRemove_eq_ok.1 hrem).2]
        exact List.erase_sublist
    · obtain ⟨htmp, l', hl', rfl⟩ := timeoutWaitpdu_frame h
      exact ⟨hmem (fun a ha => .inl ha) htmp, l', hl', rfl⟩

/-- **`iscsi_timeout_scan` keeps the invariant**, however many commands it unlinks. -/
theorem CmdsnInv.timeoutScan (hi : CmdsnInv base last w) (h : iscsiTimeoutScan w = .ok w') :
    CmdsnInv base last w' ∧ takenCmdsns w'.trace = takenCmdsns w.trace := by
  unfold iscsiTimeoutScan at h
  obtain ⟨⟨tmp, w₁⟩, h₁, h⟩ := Outcome.bind_eq_ok.1 h
  obtain ⟨w₂, h₂, h⟩ := Outcome.bind_eq_ok.1 h
  obtain ⟨⟨tmp', w₃⟩, h₃, h₄⟩ := Outcome.bind_eq_ok.1 h
  obtain ⟨w₁', h₁', hspec⟩ := unlinkOutqueue_spec (timedOut_stable w.now) (i := []) (j := [])
    (n := 0) (w := w) rfl (List.nodup_append.1 hi.nodup).1 fun a ha => by
      obtain ⟨p, hp, _⟩ := hi.sendable a ha
      simp [hp]
  obtain ⟨rfl, rfl⟩ := Prod.mk.inj (Except.ok.inj (h₁'.symm.trans h₁))
  have hi₁ := hi.unlink hspec fun a _ p hp hexp => by
    simp [World.selects, hp, timedOut, hexp]
  have ht₁ : w₁'.trace = w.trace := by rw [hspec.frame]; rfl
  have hout₁ : w₁'.iscsi.outqueue =
      w.iscsi.outqueue.filter fun a => !w.selects (timedOut w.now) a := by rw [hspec.iscsi]; rfl
  obtain ⟨hq₂, hn₂⟩ := quiet_completeTmp (fun a ha hm => by
    rw [hout₁, List.mem_filter] at hm
    simp at ha
    simp [ha.2] at hm) h₂
  obtain ⟨htmp, l', hl', rfl⟩ := timeoutWaitpdu_frame h₃
  have hq₃ := quiet_setWaitpdu hl'
  have hi₃ := (hi₁.quiet hq₂ hn₂).quiet hq₃ ⟨rfl, fun _ q hq => ⟨q, hq, rfl⟩⟩
  obtain ⟨hq₄, hn₄⟩ := quiet_completeTmp (fun a ha hm => by
    have hm₂ : a ∈ w₂.iscsi.outqueue := hm
    rcases htmp a ha with h | h
    · simp at h
    · exact (List.nodup_append.1 (hi₁.quiet hq₂ hn₂).nodup).2.2 a hm₂ a h rfl) h₄
  exact ⟨hi₃.quiet hq₄ hn₄, by rw [hq₄.taken, hq₃.taken, hq₂.taken, ht₁]⟩

end

/-! ## Writing -/

section
variable {base : UInt32} {last : Option Addr} {w w' : World} {a : Addr}

/-- The PDU being sent is not in the queue. -/
theorem quiet_sending (ha : a ∉ w.iscsi.outqueue) (h : Sending a w w') :
    Quiet w w' ∧ SameNumbers w w' := by
  refine ⟨⟨⟨h.olds, by rw [h.iscsi], by rw [h.iscsi], .inl (by rw [h.iscsi]), by rw [h.iscsi],
    by rw [h.brk], fun b hb => World.keyAt_congr (h.of_ne (ne_of_mem_of_not_mem hb ha)), ?_⟩,
    by rw [h.iscsi]⟩, h.now, fun b q hq => ?_⟩
  · obtain ⟨sent, ht⟩ := h.trace
    rw [ht, takenCmdsns_append]
    have : takenCmdsns (sent.map (Event.sent a)) = [] := by
      simp [takenCmdsns, List.filterMap_map]
    rw [this, List.append_nil]
  · by_cases hb : b = a
    · subst hb
      obtain ⟨p, q', hp, hq', n, hpq⟩ := h.pdu
      rw [hq', Function.update_self, Option.some.injEq] at hq
      subst hq
      exact ⟨p, hp, by rw [hpq]⟩
    · exact ⟨q, by rw [← h.of_ne hb, hq], rfl⟩

/-- A change of the context that leaves the queues alone. -/
theorem quiet_modify {f : Context → Context} (hout : (f w.iscsi).outqueue = w.iscsi.outqueue)
    (hwait : (f w.iscsi).waitpdu = w.iscsi.waitpdu)
    (hcur : (f w.iscsi).outqueueCurrent = w.iscsi.outqueueCurrent ∨
      (f w.iscsi).outqueueCurrent = none)
    (hsn : (f w.iscsi).cmdsn = w.iscsi.cmdsn)
    (hd : (f w.iscsi).headerDigest = w.iscsi.headerDigest) :
    Quiet w (w.modify f) ∧ SameNumbers w (w.modify f) :=
  ⟨⟨⟨rfl, hout, by rw [World.modify_iscsi, hwait], hcur, hd, le_refl _, fun _ _ => rfl, rfl⟩,
    hsn⟩, rfl, fun _ q hq => ⟨q, hq, rfl⟩⟩

/-- The end of a PDU. -/
theorem quiet_writeDone (ha : a ∉ w.iscsi.outqueue) (h : writeDone w a = .ok w') :
    Quiet w w' ∧ SameNumbers w w' := by
  unfold writeDone at h
  obtain ⟨p, _, h⟩ := Outcome.bind_eq_ok.1 h
  obtain ⟨w₂, h₂, h⟩ := Outcome.bind_eq_ok.1 h
  obtain rfl := Except.ok.inj h
  have hcork : ∀ w₁ : World, (w₁ = if p.hasFlag iscsiPduCorkWhenSent then
      w.modify fun c => { c with isCorked := true } else w) → Quiet w w₁ ∧ SameNumbers w w₁ := by
    rintro w₁ rfl
    split
    · exact quiet_modify rfl rfl (.inl rfl) rfl rfl
    · exact ⟨.refl w, rfl, fun _ q hq => ⟨q, hq, rfl⟩⟩
  obtain ⟨hq₁, hn₁⟩ := hcork _ rfl
  have hfree : Quiet w w₂ ∧ SameNumbers w w₂ := by
    unfold releaseSent at h₂
    split at h₂
    · obtain ⟨_, rfl⟩ := iscsiFreePdu_eq_ok.1 h₂
      exact ⟨hq₁.trans (quiet_release (by rw [hq₁.outqueue]; exact ha)),
        hn₁.trans (sameNumbers_release _ a)⟩
    · obtain rfl := Except.ok.inj h₂
      exact ⟨hq₁, hn₁⟩
  obtain ⟨hq₃, hn₃⟩ := quiet_modify (w := w₂) (f := (·.setOutqueueCurrent none)) rfl rfl
    (.inr rfl) rfl rfl
  exact ⟨hfree.1.trans hq₃, hfree.2.trans hn₃⟩

/-- Counting from the next CmdSN. -/
theorem toNat_sub_add_one {x b : UInt32} (h : 0 < (x - b).toNat) :
    (x - (b + 1)).toNat + 1 = (x - b).toNat := by
  have := x.toNat_lt
  have := b.toNat_lt
  simp only [UInt32.toNat_sub, UInt32.toNat_add, UInt32.toNat_ofNat] at h ⊢
  omega

/-- The CmdSN next to `base`. -/
theorem eq_add_one_of_toNat {x base : UInt32} (h : (x - base).toNat = 1) : x = base + 1 := by
  have : x - base = 1 := UInt32.toNat_inj.1 h
  rw [← this]
  grind

/-- The queues after the head was taken are well formed. -/
theorem QueueInv.taken {rest : List Addr} {q p : Pdu} (hi : QueueInv base w)
    (hq : w.iscsi.outqueue = a :: rest) (hp : w.pdus a = some p) {base' : UInt32}
    (hoff : Windowed w.roleAt (w.offAt base') 0 rest) : QueueInv base' (w.taken a q) := by
  have hnd := hi.nodup
  rw [hq, List.cons_append, List.nodup_cons] at hnd
  have harest : a ∉ rest := fun h => hnd.1 (List.mem_append_left _ h)
  have hout : (w.taken a q).iscsi.outqueue = rest := by
    simp [hq]
  have hsame : ∀ b ∈ rest, (w.taken a q).pdus b = w.pdus b := fun b hb =>
    World.taken_pdus_ne (ne_of_mem_of_not_mem hb harest)
  refine ⟨by rw [World.taken_olds, hi.olds], ?_, fun b hb => ?_, fun b hb => ?_,
    fun b hb => ?_, ?_, ?_⟩
  · rw [hout]
    exact World.nodup_taken hq hi.nodup
  · rw [World.taken_brk]
    exact hi.below b (World.mem_addrs_of_taken hq hb)
  · rw [World.taken_outqueueCurrent, Option.some.injEq] at hb
    rw [hout, ← hb]
    exact harest
  · rw [hout] at hb
    obtain ⟨r, hr, hs⟩ := hi.sendable b (by rw [hq]; exact List.mem_cons_of_mem _ hb)
    exact ⟨r, (hsame b hb).trans hr, by rw [World.taken_headerDigest]; exact hs.size, hs.field⟩
  · rw [hout]
    exact hoff.congr (fun b hb => World.roleAt_congr (hsame b hb))
      fun b hb => World.offAt_congr (hsame b hb) _
  · have hb := hi.bound
    unfold World.commandsQueued at hb ⊢
    rw [hq, count_cons] at hb
    have hcount : count (w.taken a q).roleAt rest = count w.roleAt rest :=
      count_congr fun b hb => World.roleAt_congr (hsame b hb)
    rw [hout, hcount]
    omega

/-- The commands that are left after the head was taken. -/
theorem commandsQueued_taken {rest : List Addr} {q : Pdu} (hq : w.iscsi.outqueue = a :: rest)
    (ha : a ∉ rest) : (w.taken a q).commandsQueued = count w.roleAt rest := by
  have hout : (w.taken a q).iscsi.outqueue = rest := by
    simp [hq]
  unfold World.commandsQueued
  rw [hout]
  refine count_congr fun b hb => World.roleAt_congr ?_
  exact World.taken_pdus_ne (ne_of_mem_of_not_mem hb ha)

/-- The last command stays the last when the head is taken. -/
theorem LastCommand.taken {rest : List Addr} {p q : Pdu} {c : Addr} (hi : QueueInv base w)
    (hl : LastCommand base w c) (hq : w.iscsi.outqueue = a :: rest) (hp : w.pdus a = some p)
    (hpq : p.TakenAs w.iscsi q) (ha : a ∉ rest) :
    LastCommand (if p.isCommand then base + 1 else base) (w.taken a q) c := by
  have hcount := commandsQueued_taken (q := q) hq ha
  have hout : (w.taken a q).iscsi.outqueue = rest := by
    simp [hq]
  have hrole : w.roleAt a = p.role := World.roleAt_of_some hp
  have hw := hi.windowed
  rw [hq] at hw
  have hq0 : w.commandsQueued = count w.roleAt rest + if p.isCommand then 1 else 0 := by
    unfold World.commandsQueued
    rw [hq, count_cons, hrole]
    simp only [Pdu.role_eq_numbered]
  obtain ⟨hlt, ⟨hmem, hcrole, hcoff, hexp⟩ | ⟨hmem, hzero, hsn⟩⟩ := hl
  · rw [hq, List.mem_cons] at hmem
    by_cases hca : c = a
    · subst hca
      -- the last command is the head of the queue: it is taken, and none is left
      have hcmd : p.isCommand = true := Pdu.role_eq_numbered.1 (hrole ▸ hcrole)
      have hoff := ((Windowed.cons_numbered hcrole).1 hw).1
      rw [if_pos hcmd] at hq0 ⊢
      refine ⟨by rw [World.taken_brk]; exact hlt,
        .inr ⟨by rw [hout]; exact ha, by omega, fun r hr => ?_⟩⟩
      have hqr : q = r := by simpa using hr
      rw [← hqr, hpq.cmdsn]
      exact eq_add_one_of_toNat (by rw [← World.offAt_of_some hp]; simpa using hoff)
    · have hcr := hmem.resolve_left hca
      have hsame : (w.taken a q).pdus c = w.pdus c := by
        rw [World.taken_pdus_ne hca]
      refine ⟨by rw [World.taken_brk]; exact hlt,
        .inl ⟨by rw [hout]; exact hcr, by rw [World.roleAt_congr hsame]; exact hcrole, ?_,
          fun r hr => by rw [World.taken_now]; exact hexp r (by rw [← hsame, hr])⟩⟩
      rw [World.offAt_congr hsame, hcount]
      split
      · rename_i hcmd
        rw [if_pos hcmd] at hq0
        obtain ⟨r, hr, _⟩ := hi.sendable c (by rw [hq]; exact List.mem_cons_of_mem _ hcr)
        rw [World.offAt_of_some hr] at hcoff ⊢
        have := toNat_sub_add_one (x := r.cmdsn) (b := base) (by omega)
        omega
      · rename_i hcmd
        rw [if_neg hcmd] at hq0
        omega
  · rw [hq, List.mem_cons, not_or] at hmem
    have hcmd : ¬p.isCommand := fun h => by
      rw [if_pos h] at hq0
      omega
    have hsame : (w.taken a q).pdus c = w.pdus c := by
      rw [World.taken_pdus_ne hmem.1]
    rw [if_neg hcmd] at hq0 ⊢
    exact ⟨by rw [World.taken_brk]; exact hlt,
      .inr ⟨by rw [hout]; exact hmem.2, by omega, fun r hr => hsn r (by rw [← hsame, hr])⟩⟩

/-- **The head of the queue is taken**: a command has the next CmdSN. -/
theorem CmdsnInv.take {rest : List Addr} {r : Option Int} (hi : CmdsnInv base last w)
    (hq : w.iscsi.outqueue = a :: rest) (h : takeHead w a = .ok (r, w')) :
    Advances base last w w' := by
  have hnd := hi.nodup
  rw [hq, List.cons_append, List.nodup_cons] at hnd
  have harest : a ∉ rest := fun h => hnd.1 (List.mem_append_left _ h)
  obtain ⟨_, rfl⟩ | ⟨p, hp, ⟨_, hd, hsize, _⟩ | ⟨_, q, hpq, rfl⟩⟩ := takeHead_cases h
  · exact .of_inv rfl hi
  · obtain ⟨p', hp', hs⟩ := hi.sendable a (by simp [hq])
    obtain rfl : p' = p := Option.some.inj (hp'.symm.trans hp)
    have := hs.size
    rw [iscsiHeaderSize, if_neg hd] at this
    omega
  have hw := hi.windowed
  rw [hq] at hw
  have hrole : w.roleAt a = p.role := World.roleAt_of_some hp
  have hcount := commandsQueued_taken (q := q) hq harest
  have hcmd0 : w.commandsQueued = count w.roleAt rest + if p.isCommand then 1 else 0 := by
    unfold World.commandsQueued
    rw [hq, count_cons, hrole]
    simp only [Pdu.role_eq_numbered]
  have hlast := fun c hc => (hi.isLast c hc).taken hi.toQueueInv hq hp hpq harest
  by_cases hcmd : p.isCommand = true
  · -- a command: the numbers are counted from its own now
    have hnum : w.roleAt a = .numbered := by rw [hrole, Pdu.role_eq_numbered, hcmd]
    obtain ⟨hoff, hrest⟩ := (Windowed.cons_numbered hnum).1 hw
    rw [World.offAt_of_some hp] at hoff
    rw [if_pos hcmd] at hcmd0
    simp only [hcmd, if_true] at hlast
    refine .of_taken ?_ ⟨hi.taken hq hp (hrest.shift fun b hb => ?_), ?_, hlast⟩
    · obtain ⟨p', hp', hs⟩ := hi.sendable a (by simp [hq])
      obtain rfl : p' = p := Option.some.inj (hp'.symm.trans hp)
      have : takenCmdsns [.taken a q] = [base + 1] := by
        simp only [takenCmdsns, List.filterMap_cons, List.filterMap_nil, hpq.isCommand, hcmd,
          if_true, hpq.cmdsnField, hs.field hcmd]
        rw [eq_add_one_of_toNat (x := p'.cmdsn) (by simpa using hoff)]
      rw [World.taken_trace, takenCmdsns_append, this]
    · obtain ⟨r, hr, _⟩ := hi.sendable b (by rw [hq]; exact List.mem_cons_of_mem _ hb)
      have hpos := hrest.lt_off hb
      rw [World.offAt_of_some hr] at hpos ⊢
      rw [World.offAt_of_some hr]
      exact toNat_sub_add_one hpos
    · rw [World.taken_cmdsn, hi.cmdsn, hcmd0, hcount, UInt32.ofNat_add]
      grind
  · rw [if_neg hcmd] at hcmd0
    simp only [hcmd] at hlast
    have hrest : Windowed w.roleAt (w.offAt base) 0 rest := by
      cases hr : w.roleAt a with
      | numbered => exact absurd (Pdu.role_eq_numbered.1 (hrole ▸ hr)) hcmd
      | leading => exact ((Windowed.cons_leading hr).1 hw).2.2
      | trailing => exact ((Windowed.cons_trailing hr).1 hw).2
    refine .of_inv ?_ ⟨hi.taken hq hp hrest, ?_, hlast⟩
    · have : takenCmdsns [.taken a q] = [] := by
        simp [takenCmdsns, hpq.isCommand, hcmd]
      rw [World.taken_trace, takenCmdsns_append, this, List.append_nil]
    · rw [World.taken_cmdsn, hi.cmdsn, hcmd0, hcount, Nat.add_zero]

/-- **A call of `iscsi_write_to_socket` keeps the invariant**, and the commands that it takes have
the next CmdSNs. -/
theorem CmdsnInv.write {r : Int} (hi : CmdsnInv base last w)
    (h : iscsiWriteToSocket w = .ok (r, w')) : Advances base last w w' := by
  have hrun := iscsiWriteToSocket_run h
  clear h
  induction hrun with
  | refl => exact .of_inv rfl hi
  | tail _ hstep ih =>
    obtain ⟨act, hstep⟩ := hstep
    refine ih.bind fun base' hi' => ?_
    cases hstep with
    | take hcur hq h => exact hi'.take hq h
    | sending hcur h =>
      obtain ⟨hq, hn⟩ := quiet_sending (hi'.current _ hcur) h
      exact .of_inv hq.taken (hi'.quiet hq hn)
    | done hcur h =>
      obtain ⟨hq, hn⟩ := quiet_writeDone (hi'.current _ hcur) h
      exact .of_inv hq.taken (hi'.quiet hq hn)

end

/-- **A call of `service` keeps the invariant.** -/
theorem CmdsnInv.service {base : UInt32} {last : Option Addr} {w w' : World}
    (hi : CmdsnInv base last w) (hrun : Run ServiceStep w w') : Advances base last w w' := by
  induction hrun with
  | refl => exact .of_inv rfl hi
  | tail _ hstep ih =>
    obtain ⟨act, hstep⟩ := hstep
    refine ih.bind fun base' hi' => ?_
    cases hstep with
    | write h => exact hi'.write h
    | timeoutScan h =>
      obtain ⟨hi'', ht⟩ := hi'.timeoutScan h
      exact .of_inv ht hi''

end Libiscsi
