import Libiscsi.CmdsnInv
import Libiscsi.Requests

/-!
# The CmdSNs of what is submitted

A submission allocates a PDU, gives it a CmdSN and queues it, which may call `service`. A command
takes the next CmdSN (`CmdsnInv.queueCommand`), an immediate PDU carries it without using it up
(`CmdsnInv.sendRequest`), and a DATA-OUT carries the CmdSN of its command
(`CmdsnInv.sendDataOut`).
-/

namespace Libiscsi

open Numbering

/-! ## Steps that do not concern the queue -/

section
variable {w w' : World} {a : Addr}

theorem QuietQueue.mem_addrs (h : QuietQueue w w') {b : Addr} (hb : b ∈ w'.iscsi.addrs) :
    b ∈ w.iscsi.addrs := by
  simp only [Context.addrs, List.mem_append, Option.mem_toList] at hb ⊢
  rcases hb with (hb | hb) | hb
  · exact .inl (.inl (by rwa [h.outqueue] at hb))
  · exact .inl (.inr (h.waitpdu.subset hb))
  · rcases h.current with hc | hc
    · exact .inr (by rwa [hc] at hb)
    · rw [hc] at hb
      cases hb

theorem notMem_outqueue (ha : a ∉ w.iscsi.addrs) : a ∉ w.iscsi.outqueue := fun h =>
  ha (List.mem_append_left _ (List.mem_append_left _ h))

/-- A PDU that is not queued is stored. -/
theorem quiet_setPdu (ha : a ∉ w.iscsi.outqueue) (p : Pdu) : QuietQueue w (w.setPdu a p) where
  olds := rfl
  outqueue := rfl
  waitpdu := .refl _
  current := .inl rfl
  headerDigest := rfl
  brk := le_refl _
  queued _ hb := World.keyAt_congr (Function.update_of_ne (ne_of_mem_of_not_mem hb ha) ..)
  taken := rfl

/-- A PDU gets another value with the same CmdSN, bytes and timeout. -/
theorem quiet_setPdu_key {p q : Pdu} (hp : w.pdus a = some p) (hsn : q.cmdsn = p.cmdsn)
    (hout : q.outdata = p.outdata) (ht : q.scsiTimeout = p.scsiTimeout) :
    QuietQueue w (w.setPdu a q) where
  olds := rfl
  outqueue := rfl
  waitpdu := .refl _
  current := .inl rfl
  headerDigest := rfl
  brk := le_refl _
  queued b _ := by
    by_cases hb : b = a
    · subst hb
      simp [World.keyAt, hp, hsn, hout, ht]
    · exact World.keyAt_congr (Function.update_of_ne hb ..)
  taken := rfl

theorem quiet_modifyTask (t : TaskPtr) (f : ScsiTask → ScsiTask) :
    QuietQueue w (w.modifyTask t f) where
  olds := rfl
  outqueue := rfl
  waitpdu := .refl _
  current := .inl rfl
  headerDigest := rfl
  brk := le_refl _
  queued _ _ := rfl
  taken := rfl

theorem quiet_setCmdsn (n : UInt32) : QuietQueue w (w.modify (·.setCmdsn n)) where
  olds := rfl
  outqueue := rfl
  waitpdu := .refl _
  current := .inl rfl
  headerDigest := rfl
  brk := le_refl _
  queued _ _ := rfl
  taken := rfl

theorem quiet_allocs (allocs : List Bool) : QuietQueue w { w with allocs } where
  olds := rfl
  outqueue := rfl
  waitpdu := .refl _
  current := .inl rfl
  headerDigest := rfl
  brk := le_refl _
  queued _ _ := rfl
  taken := rfl

theorem quiet_newPdu (hb : w.brk ∉ w.iscsi.outqueue) (p : Pdu) :
    QuietQueue w (w.newPdu p) where
  olds := rfl
  outqueue := rfl
  waitpdu := .refl _
  current := .inl rfl
  headerDigest := rfl
  brk := Nat.le_succ _
  queued _ hb' := World.keyAt_congr (Function.update_of_ne (ne_of_mem_of_not_mem hb' hb) ..)
  taken := rfl

/-- An allocation, whatever its outcome. -/
theorem quiet_iscsiAllocatePdu {opcode responseOpcode : UInt8} {itt flags : UInt32}
    {r : Option Addr} (hb : w.brk ∉ w.iscsi.outqueue)
    (h : iscsiAllocatePdu w opcode responseOpcode itt flags = (r, w')) : QuietQueue w w' := by
  cases r with
  | some a =>
    obtain ⟨_, rfl⟩ := iscsiAllocatePdu_some h
    exact (quiet_allocs (w.allocs.drop 2)).trans
      (quiet_newPdu (w := { w with allocs := w.allocs.drop 2 }) hb _)
  | none =>
    obtain ⟨allocs, rfl | rfl⟩ := iscsiAllocatePdu_none h
    · exact quiet_allocs allocs
    · have hnew := quiet_newPdu (w := { w with allocs }) hb {}
      exact ((quiet_allocs allocs).trans hnew).trans
        (quiet_release (w := ({ w with allocs } : World).newPdu {}) hb).toQuietQueue

theorem cmdsn_iscsiAllocatePdu {opcode responseOpcode : UInt8} {itt flags : UInt32}
    {r : Option Addr}
    (h : iscsiAllocatePdu w opcode responseOpcode itt flags = (r, w')) :
    w'.iscsi.cmdsn = w.iscsi.cmdsn := by
  cases r with
  | some a =>
    obtain ⟨_, rfl⟩ := iscsiAllocatePdu_some h
    rfl
  | none =>
    obtain ⟨allocs, rfl | rfl⟩ := iscsiAllocatePdu_none h
    · rfl
    · simp [World.release, World.newPdu]

end

/-! ## Queueing -/

section
variable {base : UInt32} {w w' : World} {a : Addr} {p q : Pdu}

/-- What queueing a PDU does to a well-formed queue, but for the numbers: the PDU is inserted as
it is, and everything else stays. -/
structure Inserted (w w' : World) (a : Addr) (q : Pdu) : Prop where
  fresh : a ∉ w.iscsi.addrs
  below : a < w.brk
  frame : w' = w.put
    (w.iscsi.setOutqueue (insertBy (w'.stopsAt q) a w.iscsi.outqueue))
    (Function.update w.pdus a (some q)) w'.tasks (w.trace ++ [.queued a q])

namespace Inserted

variable (h : Inserted w w' a q)
include h

theorem outqueue : w'.iscsi.outqueue = insertBy (w'.stopsAt q) a w.iscsi.outqueue := by
  conv_lhs => rw [h.frame]
  rfl

theorem iscsi : w'.iscsi = w.iscsi.setOutqueue w'.iscsi.outqueue := by
  rw [h.outqueue]
  conv_lhs => rw [h.frame]
  rfl

theorem pdus : w'.pdus = Function.update w.pdus a (some q) := by
  rw [h.frame]
  rfl

theorem pdus_self : w'.pdus a = some q := by rw [h.pdus, Function.update_self]

theorem pdus_of_mem {b : Addr} (hb : b ∈ w.iscsi.outqueue) : w'.pdus b = w.pdus b := by
  rw [h.pdus, Function.update_of_ne (ne_of_mem_of_not_mem hb (notMem_outqueue h.fresh))]

theorem mem_outqueue {b : Addr} : b ∈ w'.iscsi.outqueue ↔ b = a ∨ b ∈ w.iscsi.outqueue := by
  rw [h.outqueue, (perm_insertBy ..).mem_iff, List.mem_cons]

theorem cmdsn : w'.iscsi.cmdsn = w.iscsi.cmdsn := by rw [h.iscsi]; rfl

theorem brk : w'.brk = w.brk := by rw [h.frame]; rfl

theorem now : w'.now = w.now := by rw [h.frame]; rfl

theorem taken : takenCmdsns w'.trace = takenCmdsns w.trace := by
  have ht : w'.trace = w.trace ++ [.queued a q] := by rw [h.frame]; rfl
  rw [ht, takenCmdsns_append]
  exact List.append_nil _

theorem roleAt_self : w'.roleAt a = q.role := World.roleAt_of_some h.pdus_self

theorem offAt_self : w'.offAt base a = (q.cmdsn - base).toNat :=
  World.offAt_of_some h.pdus_self base

theorem roleAt_of_mem {b : Addr} (hb : b ∈ w.iscsi.outqueue) : w'.roleAt b = w.roleAt b :=
  World.roleAt_congr (h.pdus_of_mem hb)

theorem offAt_of_mem {b : Addr} (hb : b ∈ w.iscsi.outqueue) :
    w'.offAt base b = w.offAt base b :=
  World.offAt_congr (h.pdus_of_mem hb) base

/-- The number of commands in the queue. -/
theorem commandsQueued :
    w'.commandsQueued = w.commandsQueued + if q.isCommand then 1 else 0 := by
  unfold World.commandsQueued
  rw [h.outqueue, count_insertBy, count_cons, h.roleAt_self,
    count_congr fun b hb => h.roleAt_of_mem hb]
  simp only [Pdu.role_eq_numbered]

/-- The queue before the insertion, in the world after it. -/
theorem windowed (hi : QueueInv base w) :
    Windowed w'.roleAt (w'.offAt base) 0 w.iscsi.outqueue :=
  hi.windowed.congr (fun _ hb => h.roleAt_of_mem hb) fun _ hb => h.offAt_of_mem hb

/-- The numbers of the queue are less than 2³¹ ahead. -/
theorem offAt_lt (hi : QueueInv base w) {b : Addr} (hb : b ∈ w.iscsi.outqueue) :
    w'.offAt base b < 2 ^ 31 := by
  have := hi.windowed.off_le hb
  have hbound := hi.bound
  unfold World.commandsQueued at hbound
  rw [h.offAt_of_mem hb]
  omega

/-- Where the insertion stops. -/
theorem stopsAt_iff (hi : QueueInv base w) (hq : (q.cmdsn - base).toNat < 2 ^ 31) {b : Addr}
    (hb : b ∈ w.iscsi.outqueue) : w'.stopsAt q b = true ↔
      w'.offAt base a < w'.offAt base b ∨ (q.immediate ∧ w'.roleAt b ≠ .leading) := by
  obtain ⟨r, hr, _⟩ := hi.sendable b hb
  have hr' : w'.pdus b = some r := by rw [h.pdus_of_mem hb, hr]
  have hoff := h.offAt_lt hi hb
  rw [World.offAt_of_some hr'] at hoff
  rw [h.offAt_self, World.offAt_of_some hr', World.roleAt_of_some hr',
    ← iscsiSerial32Compare_lt hq hoff]
  simp [World.stopsAt, hr', Pdu.role_eq_leading]

/-- The queues are well formed once the numbers are. -/
theorem queueInv (hi : QueueInv base w) (hq : q.Sendable w.iscsi)
    (hw : Windowed w'.roleAt (w'.offAt base) 0 w'.iscsi.outqueue)
    (hb : w'.commandsQueued < 2 ^ 31 - 1) : QueueInv base w' := by
  have hwait : w'.iscsi.waitpdu = w.iscsi.waitpdu := by rw [h.iscsi]; rfl
  have hcur : w'.iscsi.outqueueCurrent = w.iscsi.outqueueCurrent := by rw [h.iscsi]; rfl
  have hd : w'.iscsi.headerDigest = w.iscsi.headerDigest := by rw [h.iscsi]; rfl
  have hfresh := h.fresh
  simp only [Context.addrs, List.mem_append, not_or, Option.mem_toList] at hfresh
  refine ⟨by rw [h.frame]; exact hi.olds, ?_, fun b hm => ?_, fun b hc => ?_, fun b hm => ?_, hw,
    hb⟩
  · rw [hwait, h.outqueue, ((perm_insertBy ..).append_right _).nodup_iff, List.cons_append,
      List.nodup_cons]
    exact ⟨by simp [hfresh.1.1, hfresh.1.2], hi.nodup⟩
  · rw [h.brk]
    simp only [Context.addrs, List.mem_append, h.mem_outqueue, hwait, hcur] at hm
    rcases hm with ((rfl | hm) | hm) | hm
    · exact h.below
    · exact hi.below b (by simp [Context.addrs, hm])
    · exact hi.below b (by simp [Context.addrs, hm])
    · exact hi.below b (by simp only [Context.addrs, List.mem_append]; exact .inr hm)
  · rw [hcur] at hc
    rw [h.mem_outqueue, not_or]
    refine ⟨?_, hi.current b hc⟩
    rintro rfl
    exact hfresh.2 hc
  · rw [h.mem_outqueue] at hm
    rcases hm with rfl | hm
    · exact ⟨q, h.pdus_self, by rw [hd]; exact hq.size, hq.field⟩
    · obtain ⟨r, hr, hs⟩ := hi.sendable b hm
      exact ⟨r, by rw [h.pdus_of_mem hm, hr], by rw [hd]; exact hs.size, hs.field⟩

end Inserted

/-- A PDU that has no timeout yet to come has not expired. -/
theorem not_expired_timeoutOf (p : Pdu) (w : World) :
    ({ p with scsiTimeout := w.timeoutOf } : Pdu).expired w.now = false := by
  unfold Pdu.expired World.timeoutOf
  split
  · rename_i ht
    have : 0 < w.iscsi.scsiTimeout.toNat := by omega
    simp
    omega
  · simp

/-- **A command is queued** behind all commands of the queue. -/
theorem QueueInv.enqueue_command (hi : QueueInv base w) (ha : a ∉ w.iscsi.addrs)
    (hb : a < w.brk) (hp : w.pdus a = some p) (hcmd : p.isCommand = true)
    (hsn : p.cmdsn = base + 1 + UInt32.ofNat w.commandsQueued) (hs : p.Sendable w.iscsi)
    (hroom : w.commandsQueued + 1 < 2 ^ 31 - 1) (h : enqueue w a = .ok w') :
    QueueInv base w' ∧ w'.commandsQueued = w.commandsQueued + 1 ∧ LastCommand base w' a ∧
      w'.iscsi.cmdsn = w.iscsi.cmdsn ∧ takenCmdsns w'.trace = takenCmdsns w.trace := by
  have himm : p.immediate = false := by
    simp only [Pdu.isCommand, Bool.and_eq_true, Bool.not_eq_true'] at hcmd
    exact hcmd.1
  obtain ⟨p', q, hp', hq, hframe, _⟩ := enqueue_spec (notMem_outqueue ha) h
  obtain rfl : p' = p := Option.some.inj (hp'.symm.trans hp)
  obtain ⟨rfl, _⟩ | ⟨_, hi', _⟩ := hq
  swap
  · simp [himm] at hi'
  have hins : Inserted w w' a { p' with scsiTimeout := w.timeoutOf } := ⟨ha, hb, hframe⟩
  have hq : ({ p' with scsiTimeout := w.timeoutOf } : Pdu).isCommand = true := hcmd
  have hrole := hins.roleAt_self.trans (Pdu.role_eq_numbered.2 hq)
  have hcount := hins.commandsQueued
  rw [if_pos hq] at hcount
  have hoff : w'.offAt base a = w.commandsQueued + 1 := by
    rw [hins.offAt_self]
    change (p'.cmdsn - base).toNat = _
    rw [hsn]
    have : base + 1 + UInt32.ofNat w.commandsQueued - base =
        UInt32.ofNat (w.commandsQueued + 1) := by
      rw [UInt32.ofNat_add]
      grind
    rw [this, UInt32.toNat_ofNat']
    omega
  have hlt : (({ p' with scsiTimeout := w.timeoutOf } : Pdu).cmdsn - base).toNat < 2 ^ 31 := by
    rw [← hins.offAt_self, hoff]
    omega
  have hw : Windowed w'.roleAt (w'.offAt base) 0 w'.iscsi.outqueue := by
    rw [hins.outqueue]
    refine (hins.windowed hi).insert_numbered hrole ?_ fun b hb => ?_
    · rw [hoff, count_congr fun b hb => hins.roleAt_of_mem hb]
      simp [World.commandsQueued]
    · rw [hins.stopsAt_iff hi hlt hb]
      have : ({ p' with scsiTimeout := w.timeoutOf } : Pdu).immediate = false := himm
      simp [this]
  refine ⟨hins.queueInv hi ⟨hs.size, hs.field⟩ hw (by omega), hcount, ?_, hins.cmdsn, hins.taken⟩
  refine ⟨by rw [hins.brk]; exact hb, .inl ⟨hins.mem_outqueue.2 (.inl rfl), hrole,
    by rw [hoff, hcount], fun r hr => ?_⟩⟩
  rw [hins.pdus_self, Option.some.injEq] at hr
  rw [← hr, hins.now]
  exact not_expired_timeoutOf p' w

/-- What the loop finds that looks for the CmdSN of an immediate PDU. -/
theorem firstCmdsn_windowed : ∀ {l : List Addr} {r : Option UInt32},
    Windowed w.roleAt (w.offAt base) 0 l → firstCmdsn w l = .ok r →
    (∀ n, r = some n → (n - base).toNat = 1) ∧ (r = none → count w.roleAt l = 0)
  | [], r, _, h => by
    obtain rfl := Except.ok.inj h
    simp
  | b :: l, r, hw, h => by
    unfold firstCmdsn at h
    obtain ⟨p, hp, h⟩ := Outcome.bind_eq_ok.1 h
    rw [World.deref_eq_ok] at hp
    have hrole : w.roleAt b = p.role := World.roleAt_of_some hp
    have hoff := World.offAt_of_some hp base
    split at h
    · rename_i hop
      obtain rfl := Except.ok.inj h
      refine ⟨fun n hn => ?_, by simp⟩
      rw [← Option.some.inj hn, ← hoff]
      cases hr : w.roleAt b with
      | numbered => exact ((Windowed.cons_numbered hr).1 hw).1
      | leading => exact ((Windowed.cons_leading hr).1 hw).2.1
      | trailing =>
        rw [hrole, Pdu.role] at hr
        split_ifs at hr
    · rename_i hop
      rw [not_not] at hop
      have hne : w.roleAt b ≠ .numbered := by
        rw [hrole, Pdu.role]
        split_ifs <;> simp
      have hl : Windowed w.roleAt (w.offAt base) 0 l := by
        cases hr : w.roleAt b with
        | numbered => exact absurd hr hne
        | leading => exact ((Windowed.cons_leading hr).1 hw).2.2
        | trailing => exact ((Windowed.cons_trailing hr).1 hw).2
      rw [count_cons_of_ne hne]
      exact firstCmdsn_windowed hl h

/-- **An immediate PDU is queued** before all commands, with the CmdSN of the first one or the
next one. -/
theorem CmdsnInv.enqueue_immediate (hi : CmdsnInv base none w) (ha : a ∉ w.iscsi.addrs)
    (hb : a < w.brk) (hp : w.pdus a = some p) (himm : p.immediate = true)
    (hsn : p.cmdsn = w.iscsi.cmdsn) (hs : iscsiHeaderSize w.iscsi.headerDigest ≤ p.outdata.length)
    (h : enqueue w a = .ok w') :
    CmdsnInv base none w' ∧ takenCmdsns w'.trace = takenCmdsns w.trace := by
  obtain ⟨p', q, hp', hq, hframe, _⟩ := enqueue_spec (notMem_outqueue ha) h
  obtain rfl : p' = p := Option.some.inj (hp'.symm.trans hp)
  have hins : Inserted w w' a q := ⟨ha, hb, hframe⟩
  -- the PDU is immediate still, and its number is the first
  have hq' : q.immediate = true ∧ q.outdata.length = p'.outdata.length ∧
      (q.cmdsn - base).toNat = 1 := by
    obtain ⟨rfl, hnone⟩ | ⟨n, _, hfirst, rfl⟩ := hq
    · refine ⟨himm, rfl, ?_⟩
      have hzero := (firstCmdsn_windowed hi.windowed (hnone himm)).2 rfl
      change (p'.cmdsn - base).toNat = 1
      rw [hsn, hi.cmdsn, World.commandsQueued, hzero]
      have : base + 1 + UInt32.ofNat 0 - base = 1 := by
        simp
      rw [this]
      rfl
    · have himm' : ({ p' with scsiTimeout := w.timeoutOf } : Pdu).immediate = true := himm
      exact ⟨by rw [Pdu.setCmdsn_immediate, himm'], length_scsiSetUint32 ..,
        (firstCmdsn_windowed hi.windowed hfirst).1 n rfl⟩
  obtain ⟨hqi, hqlen, hqoff⟩ := hq'
  have hncmd : q.isCommand = false := by simp [Pdu.isCommand, hqi]
  have hrole := hins.roleAt_self.trans (Pdu.role_eq_leading.2 hqi)
  have hcount := hins.commandsQueued
  rw [hncmd, if_neg (by simp)] at hcount
  have hw : Windowed w'.roleAt (w'.offAt base) 0 w'.iscsi.outqueue := by
    rw [hins.outqueue]
    refine (hins.windowed hi.toQueueInv).insert_leading hrole ?_ fun b hb => ?_
    · rw [hins.offAt_self, hqoff]
    · rw [hins.stopsAt_iff hi.toQueueInv (by omega) hb]
      simp [hqi]
  refine ⟨⟨hins.queueInv hi.toQueueInv ⟨by omega, fun hc => by simp [hncmd] at hc⟩ hw ?_, ?_,
    by simp⟩, hins.taken⟩
  · have := hi.bound
    omega
  · rw [hins.cmdsn, hi.cmdsn, hcount, Nat.add_zero]

/-- **A DATA-OUT of the last command is queued** behind it. -/
theorem CmdsnInv.enqueue_dataOut {c : Addr} {cmd : Pdu} (hi : CmdsnInv base (some c) w)
    (ha : a ∉ w.iscsi.addrs) (hb : a < w.brk) (hca : c ≠ a) (hp : w.pdus a = some p)
    (hrole : p.role = .trailing) (hc : w.pdus c = some cmd) (hsn : p.cmdsn = cmd.cmdsn)
    (hs : iscsiHeaderSize w.iscsi.headerDigest ≤ p.outdata.length) (h : enqueue w a = .ok w') :
    CmdsnInv base (some c) w' ∧ takenCmdsns w'.trace = takenCmdsns w.trace := by
  have himm : p.immediate = false := by
    rw [← Bool.not_eq_true, ← Pdu.role_eq_leading, hrole]
    simp
  have hncmd : p.isCommand = false := by
    rw [← Bool.not_eq_true, ← Pdu.role_eq_numbered, hrole]
    simp
  obtain ⟨p', q, hp', hq, hframe, _⟩ := enqueue_spec (notMem_outqueue ha) h
  obtain rfl : p' = p := Option.some.inj (hp'.symm.trans hp)
  obtain ⟨rfl, _⟩ | ⟨_, hi', _⟩ := hq
  swap
  · simp [himm] at hi'
  have hins : Inserted w w' a { p' with scsiTimeout := w.timeoutOf } := ⟨ha, hb, hframe⟩
  have hqr : ({ p' with scsiTimeout := w.timeoutOf } : Pdu).role = .trailing := hrole
  have hcount := hins.commandsQueued
  have hq : ({ p' with scsiTimeout := w.timeoutOf } : Pdu).isCommand = false := hncmd
  rw [hq, if_neg (by simp)] at hcount
  have hsame : w'.pdus c = w.pdus c := by rw [hins.pdus, Function.update_of_ne hca]
  obtain ⟨hclt, hlast⟩ := hi.isLast c rfl
  -- the number of the last command is that of all commands in the queue
  have hoff : w'.offAt base a = w.commandsQueued := by
    rw [hins.offAt_self]
    change (p'.cmdsn - base).toNat = _
    rw [hsn]
    rcases hlast with ⟨_, _, hoff, _⟩ | ⟨_, hzero, hbase⟩
    · rw [← hoff, World.offAt_of_some hc]
    · rw [hzero, hbase cmd hc]
      simp
  have hbound := hi.bound
  have hw : Windowed w'.roleAt (w'.offAt base) 0 w'.iscsi.outqueue := by
    rw [hins.outqueue]
    refine (hins.windowed hi.toQueueInv).insert_trailing (hins.roleAt_self.trans hqr) ?_
      fun b hb => ?_
    · rw [hoff, count_congr fun b hb => hins.roleAt_of_mem hb]
      simp [World.commandsQueued]
    · rw [hins.stopsAt_iff hi.toQueueInv (by rw [← hins.offAt_self, hoff]; omega) hb]
      have : ({ p' with scsiTimeout := w.timeoutOf } : Pdu).immediate = false := himm
      simp [this]
  refine ⟨⟨hins.queueInv hi.toQueueInv ⟨hs, fun h => by simp [hq] at h⟩ hw (by omega), ?_, ?_⟩,
    hins.taken⟩
  · rw [hins.cmdsn, hi.cmdsn, hcount, Nat.add_zero]
  · intro b hbc
    obtain rfl : c = b := by simpa using hbc
    refine ⟨by rw [hins.brk]; exact hclt, ?_⟩
    rcases hlast with ⟨hmem, hcrole, hcoff, hexp⟩ | ⟨hmem, hzero, hbase⟩
    · refine .inl ⟨hins.mem_outqueue.2 (.inr hmem), ?_, ?_, fun r hr => ?_⟩
      · rw [World.roleAt_congr hsame, hcrole]
      · rw [World.offAt_congr hsame, hcoff, hcount, Nat.add_zero]
      · rw [hins.now]
        exact hexp r (by rw [← hsame, hr])
    · refine .inr ⟨fun hm => ?_, by rw [hcount, hzero], fun r hr => hbase r (by rw [← hsame, hr])⟩
      rcases hins.mem_outqueue.1 hm with h | h
      · exact hca h
      · exact hmem h

end

/-! ## Submitting a command -/

section
variable {service : World → Res World} {base : UInt32} {w w' : World} {a : Addr}

theorem Pdu.role_of_dataOut {p : Pdu} (h : byte p.outdata 0 = iscsiPduDataOut) :
    p.role = .trailing := by
  unfold Pdu.role Pdu.immediate Pdu.opcode
  rw [h]
  rfl

/-- What follows the insertion of a PDU. -/
theorem CmdsnInv.serve (hserves : Serves service) {last : Option Addr}
    (hi : CmdsnInv base last w) (h : w' = w ∨ service w = .ok w') :
    Advances base last w w' ∧ ServiceKeeps w w' := by
  rcases h with rfl | h
  · exact ⟨.of_inv rfl hi, .refl _⟩
  · exact ⟨hi.service (hserves w w' h), .of_run (hserves w w' h)⟩

/-- The number of turns of the loop of `iscsi_send_data_out`, of as many as `fuel` at most. -/
def dataOutTurns : Nat → UInt32 → UInt32 → Nat
  | 0, _, _ => 0
  | fuel + 1, segment, len =>
    if len > 0 then 1 + dataOutTurns fuel segment (len - min len segment) else 0

/-- One DATA-OUT is queued. -/
theorem CmdsnInv.sendOneDataOut (hserves : Serves service) {ttt offset len : UInt32} {last : Bool}
    {sent : Bool} (hi : CmdsnInv base (some a) w) (hal : ∀ b ∈ w.allocs.take 2, b = true)
    (h : sendOneDataOut service w a ttt offset len last = .ok (sent, w')) :
    sent = true ∧ Advances base (some a) w w' ∧ w'.allocs = w.allocs.drop 2 ∧
      w'.iscsi.targetMaxRecvDataSegmentLength = w.iscsi.targetMaxRecvDataSegmentLength := by
  have hbrk : w.brk ∉ w.iscsi.addrs := fun hm => lt_irrefl _ (hi.below _ hm)
  unfold Libiscsi.sendOneDataOut at h
  obtain ⟨cmd, hcmd, h⟩ := Outcome.bind_eq_ok.1 h
  rw [World.deref_eq_ok] at hcmd
  rw [iscsiAllocatePdu_ok hal] at h
  simp only at h
  obtain ⟨fresh, hfresh, h⟩ := Outcome.bind_eq_ok.1 h
  have halloc : ∀ p, (w.allocated p).pdus w.brk = some p := fun p => Function.update_self ..
  rw [World.deref_eq_ok, halloc, Option.some.injEq] at hfresh
  subst hfresh
  obtain ⟨w₂, hq, h⟩ := Outcome.bind_eq_ok.1 h
  obtain ⟨rfl, rfl⟩ := Prod.mk.inj (Except.ok.inj h)
  have hab : a ≠ w.brk := ne_of_lt (hi.isLast a rfl).1
  set p := (w.iscsi.freshPdu iscsiPduDataOut iscsiPduNoPdu cmd.itt
    (iscsiPduDropOnReconnect ||| iscsiPduDeleteWhenSent)) with hp
  set w₁ := ((w.allocated p).setPdu w.brk (p.asDataOut cmd ttt offset len last)).setPdu a
    { cmd with datasn := cmd.datasn + 1 } with hw₁
  have hqa : QuietQueue w (w.allocated p) :=
    quiet_iscsiAllocatePdu (notMem_outqueue hbrk) (iscsiAllocatePdu_ok hal)
  have hw₁a : w₁.pdus a = some { cmd with datasn := cmd.datasn + 1 } := Function.update_self ..
  have hw₁b : w₁.pdus w.brk = some (p.asDataOut cmd ttt offset len last) := by
    rw [hw₁, World.setPdu_pdus, Function.update_of_ne hab.symm, World.setPdu_pdus,
      Function.update_self]
  -- the queue is as it was: of the command only the DataSN changed
  have hquiet : QuietQueue w w₁ := by
    have h₁ := hqa.trans (quiet_setPdu (by rw [hqa.outqueue]; exact notMem_outqueue hbrk)
      (p.asDataOut cmd ttt offset len last))
    refine h₁.trans (quiet_setPdu_key (p := cmd) ?_ rfl rfl rfl)
    rw [World.setPdu_pdus, Function.update_of_ne hab]
    exact (Function.update_of_ne hab ..).trans hcmd
  have hi₁ : CmdsnInv base (some a) w₁ := by
    refine ⟨hi.toQueueInv.quiet hquiet, ?_, fun b hb => ?_⟩
    · rw [hquiet.commandsQueued]
      exact hi.cmdsn
    · obtain rfl : a = b := by simpa using hb
      refine (hi.isLast a rfl).quiet hquiet rfl fun q hq => ⟨cmd, hcmd, ?_⟩
      rw [hw₁a, Option.some.injEq] at hq
      rw [← hq]
  obtain ⟨w₂', henq, hserve⟩ := iscsiAddToOutqueue_cases hq
  obtain ⟨hi₂, ht₂⟩ := hi₁.enqueue_dataOut
    (fun hm => hbrk (hquiet.mem_addrs hm)) (Nat.lt_succ_self _) hab hw₁b
    (Pdu.role_of_dataOut (by rw [byte_asDataOut, hp, byte_freshPdu])) hw₁a (by rw [asDataOut_cmdsn])
    (by rw [asDataOut_length, hp, freshPdu_length, hquiet.headerDigest]) henq
  obtain ⟨hadv, hkeep⟩ := hi₂.serve hserves hserve
  have hframe : w₂'.iscsi.session = w.iscsi.session ∧ w₂'.allocs = w.allocs.drop 2 := by
    obtain ⟨_, _, _, _, hframe, _⟩ := enqueue_spec
      (notMem_outqueue fun hm => hbrk (hquiet.mem_addrs hm)) henq
    rw [hframe]
    exact ⟨rfl, rfl⟩
  refine ⟨rfl, ?_, hkeep.allocs.trans hframe.2, ?_⟩
  · exact hadv.of_quiet (ht₂.trans hquiet.taken)
  · rw [hkeep.segment]
    exact congrArg (·.targetMaxRecvDataSegmentLength) hframe.1

/-- The DATA-OUTs of a burst are queued. -/
theorem CmdsnInv.sendDataOut (hserves : Serves service) {ttt : UInt32} :
    ∀ {fuel : Nat} {base offset len : UInt32} {w w' : World} {r : Int},
    CmdsnInv base (some a) w →
    (∀ b ∈ w.allocs.take
      (2 * dataOutTurns fuel w.iscsi.targetMaxRecvDataSegmentLength len), b = true) →
    iscsiSendDataOut service fuel w a ttt offset len = .ok (r, w') →
    Advances base (some a) w w'
  | fuel, base, offset, len, w, w', r, hi, hal, h => by
    unfold iscsiSendDataOut at h
    split at h
    swap
    · obtain ⟨_, rfl⟩ := Prod.mk.inj (Except.ok.inj h)
      exact .of_inv rfl hi
    rename_i hlen
    cases fuel with
    | zero => cases h
    | succ fuel =>
      simp only at h
      obtain ⟨⟨sent, w₁⟩, h₁, h⟩ := Outcome.bind_eq_ok.1 h
      have hturns : dataOutTurns (fuel + 1) w.iscsi.targetMaxRecvDataSegmentLength len =
          1 + dataOutTurns fuel w.iscsi.targetMaxRecvDataSegmentLength
            (len - min len w.iscsi.targetMaxRecvDataSegmentLength) := by
        rw [dataOutTurns, if_pos hlen]
      rw [hturns, show ∀ n, 2 * (1 + n) = 2 + 2 * n by omega, List.take_add] at hal
      obtain ⟨rfl, hadv, hallocs, hseg⟩ := hi.sendOneDataOut hserves
        (fun b hb => hal b (List.mem_append_left _ hb)) h₁
      rw [if_pos rfl] at h
      refine hadv.bind fun base' hi' => hi'.sendDataOut hserves (fun b hb => ?_) h
      rw [hallocs, hseg] at hb
      exact hal b (List.mem_append_right _ hb)

/-- The length of the unsolicited DATA-OUTs of a command. -/
def unsolicitedLen (c : Context) (task : ScsiTask) : UInt32 :=
  min task.expxferlen c.firstBurstLength - immediateDataLen c task

/-- The number of the unsolicited DATA-OUTs of a command. -/
def unsolicitedTurns (c : Context) (task : ScsiTask) : Nat :=
  if unsolicitedFollows c task then
    dataOutTurns (unsolicitedLen c task).toNat c.targetMaxRecvDataSegmentLength
      (unsolicitedLen c task)
  else 0

/-- A command is queued, with the unsolicited data that follows it. -/
theorem CmdsnInv.submitCommand (hserves : Serves service) {t : TaskPtr} {r : Int} {p : Pdu}
    (hi : QueueInv base w) (hsn : w.iscsi.cmdsn = base + 1 + UInt32.ofNat w.commandsQueued + 1)
    (ha : a ∉ w.iscsi.addrs) (hb : a < w.brk) (hp : w.pdus a = some p)
    (hcmd : p.isCommand = true) (hpsn : p.cmdsn = base + 1 + UInt32.ofNat w.commandsQueued)
    (hs : p.Sendable w.iscsi) (hexp : p.expxferlen = (w.tasks t).expxferlen)
    (hlen : p.payloadLen = (immediateDataLen w.iscsi (w.tasks t)).toNat)
    (hroom : w.commandsQueued + 1 < 2 ^ 31 - 1)
    (hal : ∀ b ∈ w.allocs.take (2 * unsolicitedTurns w.iscsi (w.tasks t)), b = true)
    (h : submitCommand service w a t = .ok (r, w')) : Advances base none w w' := by
  unfold Libiscsi.submitCommand at h
  obtain ⟨w₂, hq, h⟩ := Outcome.bind_eq_ok.1 h
  obtain ⟨w₁, henq, hserve⟩ := iscsiAddToOutqueue_cases hq
  obtain ⟨hi₁, hcount, hlast, hsn₁, ht₁⟩ :=
    hi.enqueue_command ha hb hp hcmd hpsn hs hroom henq
  have hinv₁ : CmdsnInv base (some a) w₁ := by
    refine ⟨hi₁, ?_, fun b hb => ?_⟩
    · rw [hsn₁, hsn, hcount, UInt32.ofNat_add]
      grind
    · obtain rfl : a = b := by simpa using hb
      exact hlast
  obtain ⟨hadv, hkeep⟩ := hinv₁.serve hserves hserve
  have hadv' := hadv.of_quiet ht₁
  split at h
  swap
  · obtain ⟨_, rfl⟩ := Prod.mk.inj (Except.ok.inj h)
    exact hadv'.forget
  rename_i hmore
  obtain ⟨⟨s, w₃⟩, hun, h⟩ := Outcome.bind_eq_ok.1 h
  obtain ⟨_, rfl⟩ := Prod.mk.inj (Except.ok.inj h)
  refine Advances.forget (show Advances base (some a) w _ from hadv'.bind fun base' hi' => ?_)
  -- the length is what it was when the command was queued
  obtain ⟨_, q₁, hp', hq₁, hframe, _⟩ := enqueue_spec (notMem_outqueue ha) henq
  obtain rfl : p = _ := Option.some.inj (hp.symm.trans hp')
  have hsame : q₁.expxferlen = p.expxferlen ∧ q₁.payloadLen = p.payloadLen := by
    obtain ⟨rfl, _⟩ | ⟨_, _, _, rfl⟩ := hq₁ <;> exact ⟨rfl, rfl⟩
  have hses : w₁.iscsi.session = w.iscsi.session ∧ w₁.allocs = w.allocs ∧
      w₁.pdus a = some q₁ := by
    rw [hframe]
    exact ⟨rfl, rfl, Function.update_self ..⟩
  unfold iscsiSendUnsolicitedDataOut at hun
  obtain ⟨q₂, hq₂, hun⟩ := Outcome.bind_eq_ok.1 hun
  rw [World.deref_eq_ok] at hq₂
  obtain ⟨q₁', hq₁', hreq⟩ := hkeep.pdus a q₂ hq₂
  obtain rfl : q₁ = q₁' := Option.some.inj (hses.2.2.symm.trans hq₁')
  have hfirst : w₂.iscsi.firstBurstLength = w.iscsi.firstBurstLength :=
    hkeep.firstBurst.trans (congrArg (·.firstBurstLength) hses.1)
  have hseg : w₂.iscsi.targetMaxRecvDataSegmentLength =
      w.iscsi.targetMaxRecvDataSegmentLength :=
    hkeep.segment.trans (congrArg (·.targetMaxRecvDataSegmentLength) hses.1)
  have hunlen : min q₂.expxferlen w₂.iscsi.firstBurstLength - UInt32.ofNat q₂.payloadLen =
      unsolicitedLen w.iscsi (w.tasks t) := by
    rw [hreq.expxferlen, hreq.payloadLen, hsame.1, hsame.2, hexp, hlen, hfirst,
      UInt32.ofNat_toNat]
    rfl
  simp only [hunlen] at hun
  refine hi'.sendDataOut hserves (fun b hb => hal b ?_) hun
  rw [unsolicitedTurns, if_pos hmore]
  rwa [hseg, hkeep.allocs, hses.2.1] at hb

/-- **A command is submitted**: it has the next CmdSN. -/
theorem CmdsnInv.queueCommand (hserves : Serves service) {lun : UInt32} {t : TaskPtr}
    {cb : Option Callback} {privateData : Nat} {r : Int} (hi : CmdsnInv base none w)
    (hroom : w.commandsQueued + 1 < 2 ^ 31 - 1)
    (hal : ∀ b ∈ (w.allocs.drop 2).take (2 * unsolicitedTurns w.iscsi (w.tasks t)), b = true)
    (h : queueCommand service w lun t cb privateData = .ok (r, w')) :
    Advances base none w w' := by
  have hbrk : w.brk ∉ w.iscsi.addrs := fun hm => lt_irrefl _ (hi.below _ hm)
  unfold Libiscsi.queueCommand iscsiIttPostIncrement at h
  simp only at h
  set w₁ := w.modify fun c =>
    { c with itt := if w.iscsi.itt + 1 = 0xffffffff then 0 else w.iscsi.itt + 1 } with hw₁
  obtain ⟨hq₁, hn₁⟩ : Quiet w w₁ ∧ SameNumbers w w₁ :=
    quiet_modify rfl rfl (.inl rfl) rfl rfl
  rcases hal₁ : iscsiAllocatePdu w₁ iscsiPduScsiRequest iscsiPduScsiResponse w.iscsi.itt 0 with
    ⟨_ | a, w₂⟩
  · rw [hal₁] at h
    obtain ⟨_, rfl⟩ := Prod.mk.inj (Except.ok.inj h)
    have hq := hq₁.toQuietQueue.trans (quiet_iscsiAllocatePdu (notMem_outqueue hbrk) hal₁)
    exact .of_inv hq.taken
      (hi.quiet_none ⟨hq, (cmdsn_iscsiAllocatePdu hal₁).trans hq₁.cmdsn⟩)
  rw [hal₁] at h
  have hq₂ := hq₁.toQuietQueue.trans (quiet_iscsiAllocatePdu (notMem_outqueue hbrk) hal₁)
  obtain ⟨rfl, rfl⟩ := iscsiAllocatePdu_some hal₁
  simp only at h
  obtain ⟨w₃, hprep, hsub⟩ := Outcome.bind_eq_ok.1 h
  set fresh := w₁.iscsi.freshPdu iscsiPduScsiRequest iscsiPduScsiResponse w.iscsi.itt 0 with hfresh
  have hframe := prepareCommand_spec (p := fresh) (Function.update_self ..) hprep
  set p := fresh.commandFor (w₁.allocated fresh).iscsi w₁.brk lun t
    ((w₁.allocated fresh).tasks t) cb privateData with hpdef
  have hw₃p : w₃.pdus w.brk = some p := by
    rw [hframe]
    exact Function.update_self ..
  have hq₃ : QuietQueue w w₃ := by
    rw [hframe]
    refine hq₂.trans
      { QuietQueue.refl _ with
        queued := fun b hb => World.keyAt_congr (Function.update_of_ne ?_ ..)
        taken := ?_ }
    · exact ne_of_mem_of_not_mem hb (by rw [hq₂.outqueue]; exact notMem_outqueue hbrk)
    · rw [World.put_trace, takenCmdsns_append]
      exact List.append_nil _
  have hsn₃ : w₃.iscsi.cmdsn = w.iscsi.cmdsn + 1 := by
    rw [hframe]
    rfl
  have hiscsi : w₃.iscsi = w₁.iscsi.setCmdsn (w.iscsi.cmdsn + 1) := by
    rw [hframe]
    rfl
  have htask : w₃.tasks t = { w.tasks t with
      ptr := some w₁.brk, lun, cmdsn := w.iscsi.cmdsn, itt := fresh.itt } := by
    rw [hframe]
    exact Function.update_self ..
  have hallocs : w₃.allocs = w.allocs.drop 2 := by
    rw [hframe]
    rfl
  have hsize := iscsiHeaderSize_ge w₁.iscsi.headerDigest
  have hflen : fresh.outdata.length = iscsiHeaderSize w₁.iscsi.headerDigest :=
    freshPdu_length ..
  have hop : byte p.outdata 0 = iscsiPduScsiRequest := by
    rw [hpdef, byte_commandFor, hfresh, byte_freshPdu]
  have himm : immediateDataLen w₃.iscsi (w₃.tasks t) = immediateDataLen w.iscsi (w.tasks t) := by
    rw [htask, hiscsi]
    rfl
  have hturns : unsolicitedTurns w₃.iscsi (w₃.tasks t) =
      unsolicitedTurns w.iscsi (w.tasks t) := by
    rw [htask, hiscsi]
    rfl
  have hadv : Advances base none w₃ w' := by
    refine submitCommand hserves (p := p) (hi.toQueueInv.quiet hq₃) ?_
      (fun hm => hbrk (hq₃.mem_addrs hm)) ?_ hw₃p ?_ ?_ ⟨?_, fun _ => ?_⟩ ?_ ?_ ?_ ?_ hsub
    · rw [hsn₃, hi.cmdsn, hq₃.commandsQueued]
    · rw [hframe]
      exact Nat.lt_succ_self _
    · unfold Pdu.isCommand Pdu.immediate Pdu.opcode
      rw [hop]
      rfl
    · rw [hpdef, commandFor_cmdsn, hq₃.commandsQueued]
      exact hi.cmdsn
    · rw [hq₃.headerDigest, hpdef, commandFor_length, hflen]
      exact le_refl _
    · rw [hpdef, commandFor_field _ _ _ _ _ _ _ _ (by omega)]
      rfl
    · rw [hpdef, commandFor_expxferlen, htask]
      rfl
    · rw [hpdef, commandFor_payloadLen, himm]
      rfl
    · rw [hq₃.commandsQueued]
      exact hroom
    · rw [hallocs, hturns]
      exact hal
  exact hadv.of_quiet hq₃.taken

/-- The allocations of the unsolicited DATA-OUTs of a command succeed. Before them two are made
for the PDU of the command, and one for the vector of the task if there is data. -/
def World.DataOutsAllocated (w : World) (t : TaskPtr) (d : Option ScsiIovec) : Prop :=
  ∀ b ∈ (w.allocs.drop (if d.isSome then 3 else 2)).take
    (2 * unsolicitedTurns w.iscsi (w.tasks t)), b = true

/-- **`iscsi_scsi_command_async` keeps the invariant** while no reconnect is in progress. -/
theorem CmdsnInv.command (hserves : Serves service) {lun : UInt32} {t : TaskPtr}
    {cb : Option Callback} {d : Option ScsiIovec} {privateData : Nat} {r : Int}
    (hi : CmdsnInv base none w) (hroom : w.commandsQueued + 1 < 2 ^ 31 - 1)
    (hal : w.DataOutsAllocated t d)
    (h : iscsiScsiCommandAsync service w lun t cb d privateData = .ok (r, w')) :
    Advances base none w w' := by
  unfold iscsiScsiCommandAsync at h
  rw [hi.olds] at h
  simp only at h
  unfold commandHere at h
  split at h
  · obtain ⟨_, rfl⟩ := Prod.mk.inj (Except.ok.inj h)
    exact .of_inv rfl hi
  split at h
  · obtain ⟨_, rfl⟩ := Prod.mk.inj (Except.ok.inj h)
    exact .of_inv rfl hi
  cases d with
  | none => exact hi.queueCommand hserves hroom hal h
  | some iov =>
    rw [World.malloc_eq] at h
    simp only at h
    have hq := quiet_allocs (w := w) w.allocs.tail
    have hi₁ := hi.quiet_none ⟨hq, rfl⟩
    split at h
    · obtain ⟨_, rfl⟩ := Prod.mk.inj (Except.ok.inj h)
      exact .of_inv rfl hi₁
    · have hq₂ := quiet_modifyTask (w := { w with allocs := w.allocs.tail }) t
        fun task => scsiTaskSetIovOut task [iov]
      have hi₂ := hi₁.quiet_none ⟨hq₂, rfl⟩
      refine (hi₂.queueCommand hserves ?_ (fun b hb => hal b ?_) h).of_quiet
        (hq.trans hq₂).taken
      · rw [(hq.trans hq₂).commandsQueued]
        exact hroom
      · have htask : unsolicitedTurns w.iscsi (scsiTaskSetIovOut (w.tasks t) [iov]) =
            unsolicitedTurns w.iscsi (w.tasks t) := rfl
        simp only [World.modifyTask_iscsi, World.modifyTask_tasks, Function.update_self,
          World.modifyTask_allocs, htask, List.drop_tail] at hb
        exact hb

/-! ## Other requests -/

/-- What adding data to a PDU that is not queued does: the header is the same but for the length
of the data. -/
theorem addData_spec {p : Pdu} {data : List UInt8} {ret : Int} (ha : a ∉ w.iscsi.outqueue)
    (hp : w.pdus a = some p) (hsize : 48 ≤ p.outdata.length)
    (h : addData w a data = .ok (ret, w')) :
    QuietQueue w w' ∧ w'.iscsi = w.iscsi ∧ w'.brk = w.brk ∧ (ret = 0 → ∃ q, w'.pdus a = some q ∧
      q.cmdsn = p.cmdsn ∧ p.outdata.length ≤ q.outdata.length ∧
      ∀ j < 48, (j < 4 ∨ 8 ≤ j) → byte q.outdata j = byte p.outdata j) := by
  unfold addData at h
  split at h
  swap
  · obtain ⟨_, rfl⟩ := Prod.mk.inj (Except.ok.inj h)
    exact ⟨.refl _, rfl, rfl, fun _ => ⟨p, hp, rfl, le_refl _, fun _ _ _ => rfl⟩⟩
  rename_i hlen
  unfold iscsiPduAddData at h
  rw [if_neg (by omega), World.malloc_eq] at h
  simp only at h
  have hd : ({ w with allocs := w.allocs.tail } : World).deref a = .ok p :=
    World.deref_eq_ok.2 hp
  rw [hd, Outcome.ok_bind] at h
  have hq := quiet_allocs (w := w) w.allocs.tail
  split at h
  · obtain ⟨rfl, rfl⟩ := Prod.mk.inj (Except.ok.inj h)
    exact ⟨hq.trans (quiet_setPdu (w := { w with allocs := w.allocs.tail }) ha _), rfl, rfl,
      fun h => by cases h⟩
  · obtain ⟨_, rfl⟩ := Prod.mk.inj (Except.ok.inj h)
    refine ⟨hq.trans (quiet_setPdu (w := { w with allocs := w.allocs.tail }) ha _), rfl, rfl,
      fun _ => ⟨_, Function.update_self .., rfl, ?_, fun j hj hne => ?_⟩⟩
    · simp [Pdu.setDataSegmentLength, Pdu.setField]
    · have : byte (p.outdata ++ data) j = byte p.outdata j := by
        simp only [byte, List.getD_eq_getElem?_getD]
        rw [List.getElem?_append_left (by omega)]
      rw [← this]
      exact byte_scsiSetUint32 (by omega)

/-- A request that was not prepared is freed. -/
theorem quiet_dropRequest {r : Int} (ha : a ∉ w.iscsi.outqueue)
    (h : dropRequest w a = .ok (r, w')) : Quiet w w' := by
  unfold dropRequest at h
  obtain ⟨w₁, h₁, h⟩ := Outcome.bind_eq_ok.1 h
  obtain ⟨_, rfl⟩ := Prod.mk.inj (Except.ok.inj h)
  obtain ⟨_, rfl⟩ := iscsiFreePdu_eq_ok.1 h₁
  exact quiet_release ha

/-- A request that was allocated and filled in as `p`, and its data added. -/
theorem QueueInv.prepared {opcode responseOpcode : UInt8} {itt flags : UInt32} {p : Pdu}
    {data : List UInt8} {ret : Int} {w₁ : World} (hi : QueueInv base w)
    (hal : iscsiAllocatePdu w opcode responseOpcode itt flags = (some a, w₁))
    (hsize : 48 ≤ p.outdata.length) (h : addData (w₁.setPdu a p) a data = .ok (ret, w')) :
    QuietQueue w w' ∧ w'.iscsi.cmdsn = w.iscsi.cmdsn ∧ a ∉ w'.iscsi.addrs ∧ a < w'.brk ∧
      (ret = 0 → ∃ q, w'.pdus a = some q ∧ q.cmdsn = p.cmdsn ∧
        p.outdata.length ≤ q.outdata.length ∧
        ∀ j < 48, (j < 4 ∨ 8 ≤ j) → byte q.outdata j = byte p.outdata j) := by
  have hbrk : w.brk ∉ w.iscsi.addrs := fun hm => lt_irrefl _ (hi.below _ hm)
  have hq₁ := quiet_iscsiAllocatePdu (notMem_outqueue hbrk) hal
  have hsn₁ := cmdsn_iscsiAllocatePdu hal
  obtain ⟨rfl, rfl⟩ := iscsiAllocatePdu_some hal
  have hbq : w.brk ∉ (w.allocated (w.iscsi.freshPdu opcode responseOpcode itt
      flags)).iscsi.outqueue := by
    rw [hq₁.outqueue]
    exact notMem_outqueue hbrk
  obtain ⟨hq₃, hc₃, hb₃, hdata⟩ := addData_spec (p := p) (w := (w.allocated (w.iscsi.freshPdu
    opcode responseOpcode itt flags)).setPdu w.brk p) hbq (Function.update_self ..) hsize h
  have hq := (hq₁.trans (quiet_setPdu hbq p)).trans hq₃
  refine ⟨hq, ?_, fun hm => hbrk (hq.mem_addrs hm), ?_, hdata⟩
  · rw [hc₃]
    exact hsn₁
  · rw [hb₃]
    exact Nat.lt_succ_self _

/-- `prepare` makes a PDU immediate and changes neither its CmdSN nor its length. -/
def PreparesImmediate (prepare : Pdu → Pdu) : Prop :=
  ∀ p : Pdu, (prepare p).cmdsn = p.cmdsn ∧ (prepare p).outdata.length = p.outdata.length ∧
    (48 ≤ p.outdata.length → (prepare p).immediate = true)

/-- Logging reads only. -/
def LogsOnly (log : World → Addr → Res World) : Prop :=
  ∀ w a w', log w a = .ok w' → w' = w

theorem logsOnly_logNothing : LogsOnly logNothing := fun _ _ _ h => (Except.ok.inj h).symm

theorem logsOnly_logNopOut : LogsOnly logNopOut := by
  intro w a w' h
  unfold logNopOut at h
  split at h
  · obtain ⟨_, _, h⟩ := Outcome.bind_eq_ok.1 h
    exact (Except.ok.inj h).symm
  · exact (Except.ok.inj h).symm

/-- **An immediate request keeps the invariant.** -/
theorem CmdsnInv.sendRequest (hserves : Serves service) {opcode responseOpcode : UInt8}
    {itt flags : UInt32} {prepare : Pdu → Pdu} {data : List UInt8}
    {log : World → Addr → Res World} {r : Int} (hlog : LogsOnly log)
    (hprep : PreparesImmediate prepare) (hi : CmdsnInv base none w)
    (h : sendRequest service w opcode responseOpcode itt flags prepare data log = .ok (r, w')) :
    Advances base none w w' := by
  have hbrk : w.brk ∉ w.iscsi.addrs := fun hm => lt_irrefl _ (hi.below _ hm)
  have hsize := iscsiHeaderSize_ge w.iscsi.headerDigest
  unfold Libiscsi.sendRequest at h
  rcases hal : iscsiAllocatePdu w opcode responseOpcode itt flags with ⟨_ | a, w₁⟩
  · rw [hal] at h
    obtain ⟨_, rfl⟩ := Prod.mk.inj (Except.ok.inj h)
    have hq := quiet_iscsiAllocatePdu (notMem_outqueue hbrk) hal
    exact .of_inv hq.taken (hi.quiet_none ⟨hq, cmdsn_iscsiAllocatePdu hal⟩)
  rw [hal] at h
  have hsn₁ := cmdsn_iscsiAllocatePdu hal
  simp only at h
  obtain ⟨fresh, hfresh, h⟩ := Outcome.bind_eq_ok.1 h
  have hflen : fresh.outdata.length = iscsiHeaderSize w.iscsi.headerDigest := by
    rw [iscsiAllocatePdu_deref hal hfresh]
    exact freshPdu_length ..
  obtain ⟨hpsn, hplen, hpimm⟩ := hprep (fresh.setCmdsn w₁.iscsi.cmdsn)
  set p := prepare (fresh.setCmdsn w₁.iscsi.cmdsn)
  have hlen : p.outdata.length = iscsiHeaderSize w.iscsi.headerDigest := by
    rw [hplen, ← hflen]
    exact length_scsiSetUint32 ..
  obtain ⟨⟨ret, w₃⟩, hadd, hrest⟩ := Outcome.bind_eq_ok.1 h
  obtain ⟨hq, hsn, ha, hb, hdata⟩ := hi.toQueueInv.prepared hal (by omega) hadd
  have hi₃ := hi.quiet_none ⟨hq, hsn⟩
  simp only at hrest
  split at hrest
  · have hfree := quiet_dropRequest (notMem_outqueue ha) hrest
    exact .of_inv (hfree.taken.trans hq.taken) (hi₃.quiet_none hfree)
  · rename_i hret
    obtain ⟨q, hq₄, hqsn, hqlen, hqbyte⟩ := hdata (not_not.1 hret)
    unfold queueRequest at hrest
    obtain ⟨w₄, hqueue, hrest⟩ := Outcome.bind_eq_ok.1 hrest
    obtain ⟨w₅, hlogged, hdone⟩ := Outcome.bind_eq_ok.1 hrest
    obtain rfl : w₅ = _ := hlog _ _ _ hlogged
    obtain ⟨_, rfl⟩ := Prod.mk.inj (Except.ok.inj hdone)
    obtain ⟨w₆, henq, hserve⟩ := iscsiAddToOutqueue_cases hqueue
    have hqimm : q.immediate = true := by
      have := hpimm (by rw [← hplen]; omega)
      unfold Pdu.immediate at this ⊢
      rw [hqbyte 0 (by omega) (by omega), this]
    obtain ⟨hi₅, ht₅⟩ := hi₃.enqueue_immediate ha hb hq₄ hqimm
      (by rw [hqsn, hpsn, hsn]; exact hsn₁) (by rw [hq.headerDigest]; omega) henq
    exact (hi₅.serve hserves hserve).1.of_quiet (ht₅.trans hq.taken)

/-- A byte with the immediate bit has the immediate bit. -/
theorem or_iscsiPduImmediate (b : UInt8) :
    ((b ||| iscsiPduImmediate) &&& iscsiPduImmediate != 0) = true := by
  have : (b ||| iscsiPduImmediate) &&& iscsiPduImmediate = iscsiPduImmediate := by
    apply UInt8.toBitVec_inj.1
    ext i hi
    simp
    grind
  rw [this]
  decide

theorem Pdu.setImmediate_immediate {p : Pdu} (h : 48 ≤ p.outdata.length) :
    p.setImmediate.immediate = true := by
  unfold Pdu.setImmediate Pdu.setByte Pdu.immediate
  rw [byte_set_eq (by omega)]
  exact or_iscsiPduImmediate _

/-- A request that is made immediate, with other bytes of the header written after that. -/
theorem preparesImmediate {prepare : Pdu → Pdu}
    (h : ∀ p : Pdu, (prepare p).cmdsn = p.cmdsn ∧
      (prepare p).outdata.length = p.outdata.length ∧
      byte (prepare p).outdata 0 = byte p.setImmediate.outdata 0) : PreparesImmediate prepare := by
  intro p
  refine ⟨(h p).1, (h p).2.1, fun hlen => ?_⟩
  unfold Pdu.immediate
  rw [(h p).2.2]
  exact Pdu.setImmediate_immediate hlen

/-- **`iscsi_nop_out_async` keeps the invariant**: the NOP-Out takes a CmdSN. -/
theorem CmdsnInv.nopOut (hserves : Serves service) {cb : Option Callback} {data : List UInt8}
    {privateData : Nat} {r : Int} (hi : CmdsnInv base none w)
    (hroom : w.commandsQueued + 1 < 2 ^ 31 - 1)
    (h : iscsiNopOutAsync service w cb data privateData = .ok (r, w')) :
    Advances base none w w' := by
  unfold iscsiNopOutAsync at h
  split at h
  · obtain ⟨_, rfl⟩ := Prod.mk.inj (Except.ok.inj h)
    exact .of_inv rfl hi
  split at h
  · obtain ⟨_, rfl⟩ := Prod.mk.inj (Except.ok.inj h)
    exact .of_inv rfl hi
  unfold iscsiIttPostIncrement at h
  simp only at h
  set w₀ := w.modify fun c =>
    { c with itt := if w.iscsi.itt + 1 = 0xffffffff then 0 else w.iscsi.itt + 1 }
  obtain ⟨hq₀, hn₀⟩ : Quiet w w₀ ∧ SameNumbers w w₀ := quiet_modify rfl rfl (.inl rfl) rfl rfl
  have hi₀ := hi.quiet hq₀ hn₀
  have hbrk : w₀.brk ∉ w₀.iscsi.addrs := fun hm => lt_irrefl _ (hi₀.below _ hm)
  have hsize := iscsiHeaderSize_ge w₀.iscsi.headerDigest
  rcases hal : iscsiAllocatePdu w₀ iscsiPduNopOut iscsiPduNopIn w.iscsi.itt
    iscsiPduDropOnReconnect with ⟨_ | a, w₁⟩
  · rw [hal] at h
    obtain ⟨_, rfl⟩ := Prod.mk.inj (Except.ok.inj h)
    have hq := quiet_iscsiAllocatePdu (notMem_outqueue hbrk) hal
    exact .of_inv (hq.taken.trans hq₀.taken)
      (hi₀.quiet_none ⟨hq, cmdsn_iscsiAllocatePdu hal⟩)
  rw [hal] at h
  have hsn₁ := cmdsn_iscsiAllocatePdu hal
  simp only at h
  obtain ⟨fresh, hfresh, h⟩ := Outcome.bind_eq_ok.1 h
  have hf : fresh.outdata.length = iscsiHeaderSize w₀.iscsi.headerDigest ∧
      byte fresh.outdata 0 = iscsiPduNopOut := by
    rw [iscsiAllocatePdu_deref hal hfresh]
    exact ⟨freshPdu_length .., byte_freshPdu ..⟩
  obtain ⟨hflen, hfop⟩ := hf
  set p := (((({ fresh with callback := cb, privateData } : Pdu).setPduflags 0x80).setTtt
    0xffffffff).setLun 0).setCmdsn w₁.iscsi.cmdsn with hpdef
  have hplen : p.outdata.length = iscsiHeaderSize w₀.iscsi.headerDigest := by
    rw [hpdef]
    simp [Pdu.setCmdsn, Pdu.setLun, Pdu.setTtt, Pdu.setPduflags, Pdu.setField, Pdu.setByte, hflen]
  have hpop : byte p.outdata 0 = iscsiPduNopOut := by
    rw [hpdef]
    simp [Pdu.setLun, Pdu.setTtt, Pdu.setPduflags, Pdu.setField, Pdu.setByte,
      byte_scsiSetUint32, byte_scsiSetUint16, byte_set_ne, hfop]
  have hpfield : scsiGetUint32 p.outdata 24 = w₁.iscsi.cmdsn := by
    refine scsiGetUint32_set ?_
    have : p.outdata.length = ((((({ fresh with callback := cb, privateData } : Pdu).setPduflags
      0x80).setTtt 0xffffffff).setLun 0)).outdata.length := length_scsiSetUint32 ..
    omega
  obtain ⟨⟨ret, w₃⟩, hadd, hrest⟩ := Outcome.bind_eq_ok.1 h
  obtain ⟨hq, hsn, ha, hb, hdata⟩ := hi₀.toQueueInv.prepared hal (by omega) hadd
  have hi₃ := hi₀.quiet_none ⟨hq, hsn⟩
  simp only at hrest
  split at hrest
  · have hfree := quiet_dropRequest (notMem_outqueue ha) hrest
    exact .of_inv (hfree.taken.trans (hq.taken.trans hq₀.taken)) (hi₃.quiet_none hfree)
  · rename_i hret
    obtain ⟨q, hq₄, hqsn, hqlen, hqbyte⟩ := hdata (not_not.1 hret)
    obtain ⟨w₄, hadd', hrest⟩ := Outcome.bind_eq_ok.1 hrest
    obtain ⟨w₅, hlogged, hdone⟩ := Outcome.bind_eq_ok.1 hrest
    obtain rfl : w₅ = _ := logsOnly_logNopOut _ _ _ hlogged
    obtain ⟨_, rfl⟩ := Prod.mk.inj (Except.ok.inj hdone)
    obtain ⟨w₆, henq, hserve⟩ := iscsiAddToOutqueue_cases hadd'
    have hqs := quiet_setCmdsn (w := w₃) (w₃.iscsi.cmdsn + 1)
    have hqcmd : q.isCommand = true := by
      unfold Pdu.isCommand Pdu.immediate Pdu.opcode
      rw [hqbyte 0 (by omega) (by omega), hpop]
      rfl
    have hpsn : p.cmdsn = w₃.iscsi.cmdsn := by
      rw [hsn]
      exact hsn₁
    have hqfield : scsiGetUint32 q.outdata 24 = q.cmdsn := by
      rw [hqsn, hpsn, hsn, ← hsn₁, ← hpfield]
      unfold scsiGetUint32
      rw [hqbyte 24 (by omega) (by omega), hqbyte (24 + 1) (by omega) (by omega),
        hqbyte (24 + 2) (by omega) (by omega), hqbyte (24 + 3) (by omega) (by omega)]
    obtain ⟨hi₅, hcount, _, hsn₅, ht₅⟩ := (hi₃.toQueueInv.quiet hqs).enqueue_command
      (fun hm => ha (hqs.mem_addrs hm)) hb hq₄ hqcmd
      (by rw [hqsn, hpsn, hqs.commandsQueued]; exact hi₃.cmdsn)
      ⟨by rw [hqs.headerDigest, hq.headerDigest]; omega, fun _ => hqfield⟩
      (by rw [hqs.commandsQueued, hq.commandsQueued, hq₀.commandsQueued]; exact hroom) henq
    have hinv : CmdsnInv base none w₆ := by
      refine ⟨hi₅, ?_, by simp⟩
      rw [hsn₅, hcount, hqs.commandsQueued, UInt32.ofNat_add]
      change w₃.iscsi.cmdsn + 1 = _
      rw [hi₃.cmdsn]
      grind
    have hadv := (hinv.serve hserves hserve).1.of_quiet
      (ht₅.trans (hqs.taken.trans (hq.taken.trans hq₀.taken)))
    refine hadv.bind fun base' hi' => ?_
    obtain ⟨hq', hn'⟩ := quiet_modify (w := w₄)
      (f := fun c => { c with nopsInFlight := c.nopsInFlight + 1 }) rfl rfl (.inl rfl) rfl rfl
    exact .of_inv hq'.taken (hi'.quiet hq' hn')

end

end Libiscsi
