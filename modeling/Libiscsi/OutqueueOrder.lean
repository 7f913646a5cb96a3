import Libiscsi.CmdsnInv
import Libiscsi.Lib.Departure

/-!
# The order in which PDUs leave `outqueue`

PDUs are added with `iscsi_add_to_outqueue` and taken from the head. The CmdSNs of the commands
ascend, a DATA-OUT never leaves before its command, and an immediate PDU leaves before the commands
that were in the queue when it was added. But PDUs with the same CmdSN need not leave in the order
in which they were added: an immediate PDU, which has the CmdSN of the first command, stands in
front of DATA-OUTs with smaller CmdSNs, and the next DATA-OUT of the same task is inserted in front
of it. `outqueueOrder_iff` says exactly when this happens.
-/

namespace Libiscsi

open Numbering

/-! ## Histories of a queue -/

/-- The role and the CmdSN of a PDU. -/
def Pdu.key (p : Pdu) : Role × UInt32 := (p.role, p.cmdsn)

/-- The CmdSN that a PDU has in `outqueue`: an immediate PDU gets that of the first PDU that is not
a DATA-OUT, if there is one. -/
def World.cmdsnFor (w : World) (p : Pdu) : UInt32 :=
  if p.immediate then
    match firstCmdsn w w.iscsi.outqueue with
    | .ok (some cmdsn) => cmdsn
    | _ => p.cmdsn
  else p.cmdsn

/-- A connection with the history of its queue: the role and the CmdSN with which a PDU was added,
the PDUs in the order in which they were added and in which they left, and for every immediate PDU
the commands that were in the queue when it was added. -/
structure QueueHistory where
  world : World := {}
  key : Addr → Role × UInt32 := fun _ => (.leading, 0)
  added : List Addr := []
  left : List Addr := []
  jumped : List (Addr × Addr) := []

namespace QueueHistory

/-- The PDUs that have left, and those that are in the queue. -/
def order (s : QueueHistory) : List Addr := s.left ++ s.world.iscsi.outqueue

/-- The role of a PDU. -/
def role (s : QueueHistory) (a : Addr) : Role := (s.key a).1

/-- The CmdSN of a PDU, counted from `base`. -/
def off (s : QueueHistory) (base : UInt32) (a : Addr) : Nat := ((s.key a).2 - base).toNat

/-- The commands that an immediate PDU that is added now has to leave before. -/
def jumps (s : QueueHistory) (a : Addr) (p : Pdu) : List (Addr × Addr) :=
  if p.immediate then
    (s.world.iscsi.outqueue.filter fun b => s.role b = .numbered).map fun b => (a, b)
  else []

/-- What the callers of `iscsi_add_to_outqueue` see to: the PDU is a new one, within half of the
serial numbers; a command has a greater CmdSN than the commands before it; a DATA-OUT has the
CmdSN of a command that was added before; a DATA-OUT is not immediate. -/
structure Submits (base : UInt32) (s : QueueHistory) (a : Addr) (p : Pdu) : Prop where
  fresh : a ∉ s.added
  window : (p.cmdsn - base).toNat < 2 ^ 31
  command : p.role = .numbered → ∀ b ∈ s.added, s.role b = .numbered →
    iscsiSerial32Compare (s.key b).2 p.cmdsn < 0
  dataOut : p.role = .trailing → ∃ b ∈ s.added, s.key b = (.numbered, p.cmdsn)
  immediate : p.immediate = true → p.opcode ≠ iscsiPduDataOut

end QueueHistory

/-- What happens to a queue. The nested call of `service` that adding a PDU may make is in the steps
that follow it. -/
inductive QueueAct where
  /-- `iscsi_add_to_outqueue`. -/
  | add (a : Addr)
  /-- The head is removed. -/
  | remove
  /-- Anything that leaves the queue, and the roles and the CmdSNs of its PDUs. -/
  | other

/-- The steps of a queue all of whose CmdSNs are less than 2³¹ ahead of `base`. -/
def QueueStep (base : UInt32) : QueueAct → QueueHistory → QueueHistory → Prop
  | .add a, s, s' => ∃ p q w', s.world.pdus a = some p ∧ s.Submits base a p ∧
    enqueue s.world a = .ok w' ∧ w'.pdus a = some q ∧
    s' = { world := w', key := Function.update s.key a q.key, added := s.added ++ [a]
           left := s.left, jumped := s.jumped ++ s.jumps a q }
  | .remove, s, s' => ∃ a rest, s.world.iscsi.outqueue = a :: rest ∧
    s' = { s with world := s.world.modify (·.setOutqueue rest), left := s.left ++ [a] }
  | .other, s, s' => ∃ w', w'.iscsi.outqueue = s.world.iscsi.outqueue ∧
    (∀ a ∈ s.world.iscsi.outqueue, ∀ p, s.world.pdus a = some p →
      ∃ q, w'.pdus a = some q ∧ q.key = p.key ∧ q.opcode = p.opcode) ∧
    s' = { s with world := w' }

/-- The order in which PDUs should leave: commands by their CmdSNs, PDUs with the same role and
CmdSN as they were added, no DATA-OUT before its command, and an immediate PDU before the commands
that were in the queue when it was added. -/
structure OutqueueOrder (s : QueueHistory) : Prop where
  commands : s.order.Pairwise fun a b => s.role a = .numbered → s.role b = .numbered →
    iscsiSerial32Compare (s.key a).2 (s.key b).2 < 0
  fifo : Fifo s.key s.added s.order
  dataOut : s.order.Pairwise fun a b =>
    s.role a = .trailing → s.role b = .numbered → (s.key a).2 ≠ (s.key b).2
  immediate : ∀ x ∈ s.jumped, [x.1, x.2].Sublist s.order

/-- The condition under which a PDU that is added does not overtake one with its role and its
CmdSN: no such PDU stands behind one that has a greater CmdSN, or, if the PDU is immediate, behind
one that is not. -/
def QueueGood : QueueAct → QueueHistory → Prop
  | .add a, s => ∀ p, s.world.pdus a = some p → s.world.iscsi.outqueue.Pairwise fun b c =>
    iscsiSerial32Compare (s.world.cmdsnFor p) (s.key b).2 < 0 ∨
        p.role = .leading ∧ s.role b ≠ .leading →
      s.key c ≠ (p.role, s.world.cmdsnFor p)
  | _, _ => True

/-! ## What holds in every history -/

/-- The invariant of a history. -/
structure HistoryInv (base : UInt32) (s : QueueHistory) : Prop where
  departs : Departs s.role (s.off base) s.left s.world.iscsi.outqueue
  keys : ∀ a ∈ s.world.iscsi.outqueue, ∃ p, s.world.pdus a = some p ∧ p.key = s.key a ∧
    (p.immediate = true → p.opcode ≠ iscsiPduDataOut)
  members : ∀ a ∈ s.order, a ∈ s.added
  window : ∀ a ∈ s.added, s.off base a < 2 ^ 31
  owners : ∀ a ∈ s.added, s.role a = .trailing →
    ∃ b ∈ s.added, s.key b = (.numbered, (s.key a).2)
  jumped : ∀ x ∈ s.jumped, [x.1, x.2].Sublist s.order

section
variable {base : UInt32} {s s' : QueueHistory} {a : Addr} {p q : Pdu} {w w' : World}

/-- The CmdSN that the first loop finds is that of the first PDU that is not a DATA-OUT. -/
theorem firstCmdsn_spec {key : Addr → Role × UInt32} : ∀ {l : List Addr},
    (∀ b ∈ l, ∃ p, w.pdus b = some p ∧ p.key = key b ∧
      (p.immediate = true → p.opcode ≠ iscsiPduDataOut)) →
    (firstCmdsn w l = .ok none ∧ ∀ b ∈ l, (key b).1 = .trailing) ∨
      ∃ l₁ f l₂, l = l₁ ++ f :: l₂ ∧ firstCmdsn w l = .ok (some (key f).2) ∧
        (key f).1 ≠ .trailing ∧ ∀ b ∈ l₁, (key b).1 = .trailing
  | [], _ => .inl ⟨rfl, by simp⟩
  | b :: l, h => by
    rw [List.forall_mem_cons] at h
    obtain ⟨⟨p, hp, hkey, himm⟩, hl⟩ := h
    rw [firstCmdsn, World.deref_eq_ok.2 hp, Outcome.ok_bind]
    by_cases hop : p.opcode = iscsiPduDataOut
    · have htrail : (key b).1 = .trailing := by
        rw [← hkey]
        have hni : p.immediate = false := by
          by_contra h
          exact himm (by simpa using h) hop
        simp [Pdu.key, Pdu.role, hni, hop]
      rw [if_neg (not_not.2 hop)]
      rcases firstCmdsn_spec hl with ⟨hnone, hall⟩ | ⟨l₁, f, l₂, rfl, hsome, hf, hall⟩
      · exact .inl ⟨hnone, List.forall_mem_cons.2 ⟨htrail, hall⟩⟩
      · exact .inr ⟨b :: l₁, f, l₂, rfl, hsome, hf, List.forall_mem_cons.2 ⟨htrail, hall⟩⟩
    · rw [if_pos hop]
      refine .inr ⟨[], b, l, rfl, by rw [← hkey]; rfl, ?_, by simp⟩
      rw [← hkey]
      unfold Pdu.key Pdu.role
      cases p.immediate <;> simp [hop]

/-- What adding a PDU does, in the terms of the history. -/
structure Added (s : QueueHistory) (a : Addr) (p q : Pdu) (w' : World) : Prop where
  role : q.role = p.role
  cmdsn : q.cmdsn = s.world.cmdsnFor p
  opcode : q.opcode = p.opcode
  pdus : ∀ b, b ≠ a → w'.pdus b = s.world.pdus b
  self : w'.pdus a = some q
  outqueue : w'.iscsi.outqueue = insertBy (w'.stopsAt q) a s.world.iscsi.outqueue

/-- A PDU that is added. -/
theorem HistoryInv.added (hi : HistoryInv base s) (ha : a ∉ s.added)
    (hp : s.world.pdus a = some p) (h : enqueue s.world a = .ok w') (hq : w'.pdus a = some q) :
    Added s a p q w' := by
  have hout : a ∉ s.world.iscsi.outqueue := fun hm =>
    ha (hi.members a (List.mem_append_right _ hm))
  obtain ⟨p', q', hp', hcases, hframe, _⟩ := enqueue_spec hout h
  obtain rfl := Option.some.inj (hp'.symm.trans hp)
  have hpdus : w'.pdus = Function.update s.world.pdus a (some q') := by rw [hframe]; rfl
  have hself : w'.pdus a = some q' := by rw [hpdus, Function.update_self]
  obtain rfl := Option.some.inj (hself.symm.trans hq)
  have hframe' : w'.iscsi.outqueue =
      insertBy (w'.stopsAt q') a s.world.iscsi.outqueue := congrArg (·.iscsi.outqueue) hframe
  refine ⟨?_, ?_, ?_, fun b hb => by rw [hpdus, Function.update_of_ne hb], hself, hframe'⟩
  · rcases hcases with ⟨rfl, _⟩ | ⟨n, _, _, rfl⟩
    · rfl
    · exact (Pdu.Renumbered.setCmdsn ({ p' with scsiTimeout := s.world.timeoutOf } : Pdu) n).role
  · unfold World.cmdsnFor
    rcases hcases with ⟨rfl, hnone⟩ | ⟨n, himm, hsome, rfl⟩
    · split
      · next himm => rw [hnone himm]
      · rfl
    · rw [if_pos himm, hsome]
      rfl
  · rcases hcases with ⟨rfl, _⟩ | ⟨n, _, _, rfl⟩
    · rfl
    · exact (Pdu.Renumbered.setCmdsn ({ p' with scsiTimeout := s.world.timeoutOf } : Pdu) n).opcode

/-- The CmdSN that a PDU gets is within the window. -/
theorem HistoryInv.cmdsnFor_window (hi : HistoryInv base s) (hp : (p.cmdsn - base).toNat < 2 ^ 31) :
    (s.world.cmdsnFor p - base).toNat < 2 ^ 31 := by
  unfold World.cmdsnFor
  split
  · rcases firstCmdsn_spec hi.keys with ⟨hnone, _⟩ | ⟨l₁, f, l₂, hl, hsome, _⟩
    · rw [hnone]
      exact hp
    · rw [hsome]
      exact hi.window f (hi.members f (List.mem_append_right _ (by rw [hl]; simp)))
  · exact hp

/-- The history after a PDU was added. -/
def QueueHistory.add (s : QueueHistory) (a : Addr) (q : Pdu) (w' : World) : QueueHistory where
  world := w'
  key := Function.update s.key a q.key
  added := s.added ++ [a]
  left := s.left
  jumped := s.jumped ++ s.jumps a q

section
variable (hi : HistoryInv base s) (hsub : s.Submits base a p) (hadd : Added s a p q w')

include hsub in
/-- A PDU that was there before has the key it had. -/
theorem key_add_of_mem {b : Addr} (hb : b ∈ s.added) : (s.add a q w').key b = s.key b := by
  have hne : b ≠ a := by
    rintro rfl
    exact hsub.fresh hb
  exact Function.update_of_ne hne ..

theorem key_add_self : (s.add a q w').key a = q.key := Function.update_self ..

include hadd in
/-- The order before is a part of the order after. -/
theorem sublist_order_add : s.order.Sublist (s.add a q w').order := by
  obtain ⟨l₁, l₂, hl, hins⟩ := insertBy_eq (w'.stopsAt q) a s.world.iscsi.outqueue
  change (s.left ++ _).Sublist (s.left ++ w'.iscsi.outqueue)
  rw [hadd.outqueue, hins, hl]
  exact (((List.sublist_cons_self a l₂).append_left l₁)).append_left s.left

include hadd in
/-- The PDUs that are there after. -/
theorem mem_order_add {b : Addr} (hb : b ∈ (s.add a q w').order) : b = a ∨ b ∈ s.order := by
  rcases List.mem_append.1 hb with hb | hb
  · exact .inr (List.mem_append_left _ hb)
  · have hb : b ∈ w'.iscsi.outqueue := hb
    rw [hadd.outqueue, (perm_insertBy ..).mem_iff, List.mem_cons] at hb
    exact hb.imp id (List.mem_append_right _)

include hi hsub hadd

/-- Where the insertion stops. -/
theorem stopsAt_add : Departs.StopsAt (s.add a q w').role ((s.add a q w').off base) a
    (w'.stopsAt q) s.world.iscsi.outqueue := by
  intro b hb
  have hb' := hi.members b (List.mem_append_right _ hb)
  obtain ⟨r, hr, hkey, _⟩ := hi.keys b hb
  have hba : b ≠ a := fun h => hsub.fresh (h ▸ hb')
  have hpos : w'.pdus b = some r := (hadd.pdus b hba).trans hr
  have hwq : (q.cmdsn - base).toNat < 2 ^ 31 := by
    rw [hadd.cmdsn]
    exact hi.cmdsnFor_window hsub.window
  have hwr : (r.cmdsn - base).toNat < 2 ^ 31 := by
    have := hi.window b hb'
    rwa [QueueHistory.off, ← hkey] at this
  rw [QueueHistory.off, QueueHistory.off, QueueHistory.role, QueueHistory.role,
    key_add_of_mem hsub hb', ← hkey, key_add_self]
  simp only [Pdu.key, ← iscsiSerial32Compare_lt hwq hwr]
  simp [World.stopsAt, hpos, Pdu.role_eq_leading]

/-- The order of departure with the PDU that was added. -/
theorem departs_add : Departs (s.add a q w').role ((s.add a q w').off base) (s.add a q w').left
    (s.add a q w').world.iscsi.outqueue := by
  have hold : ∀ b ∈ s.left ++ s.world.iscsi.outqueue, (s.add a q w').key b = s.key b :=
    fun b hb => key_add_of_mem hsub (hi.members b hb)
  have hself : (s.add a q w').key a = q.key := key_add_self
  have h : Departs (s.add a q w').role ((s.add a q w').off base) s.left s.world.iscsi.outqueue :=
    hi.departs.congr (fun b hb => congrArg Prod.fst (hold b hb))
      fun b hb => congrArg (fun k : Role × UInt32 => (k.2 - base).toNat) (hold b hb)
  have hstops := stopsAt_add hi hsub hadd
  have hrole : (s.add a q w').role a = p.role := by
    rw [QueueHistory.role, hself, Pdu.key, hadd.role]
  change Departs _ _ s.left w'.iscsi.outqueue
  rw [hadd.outqueue]
  cases hr : p.role with
  | numbered =>
    refine h.insert_numbered hstops (hrole.trans hr) fun b hb hnl => ?_
    have hb' := hi.members b hb
    -- a command that was added before has a smaller CmdSN, and so has its DATA-OUT
    have hcmd : ∀ c ∈ s.added, s.role c = .numbered → s.off base c < (s.add a q w').off base a := by
      intro c hc hcr
      have hq : q.cmdsn = p.cmdsn := by
        rw [hadd.cmdsn, World.cmdsnFor, if_neg fun himm => by
          rw [← Pdu.role_eq_leading, hr] at himm
          cases himm]
      have := (iscsiSerial32Compare_lt (hi.window c hc) hsub.window).1 (hsub.command hr c hc hcr)
      rwa [QueueHistory.off, QueueHistory.off, hself, Pdu.key, hq]
    rw [QueueHistory.off, hold b hb]
    rw [QueueHistory.role, hold b hb] at hnl
    cases hrb : s.role b with
    | numbered => exact hcmd b hb' hrb
    | leading => exact absurd hrb hnl
    | trailing =>
      obtain ⟨c, hc, hkc⟩ := hi.owners b hb' hrb
      have := hcmd c hc (by rw [QueueHistory.role, hkc])
      rwa [QueueHistory.off, hkc] at this
  | trailing => exact h.insert_trailing hstops (hrole.trans hr)
  | leading =>
    refine h.insert_leading (hrole.trans hr) fun b hb hrb => ?_
    have himm : p.immediate = true := Pdu.role_eq_leading.1 hr
    have hmem : ∀ c ∈ s.world.iscsi.outqueue, c ∈ s.left ++ s.world.iscsi.outqueue := fun c hc =>
      List.mem_append_right _ hc
    rw [QueueHistory.role, hold b (hmem b hb)] at hrb
    rcases firstCmdsn_spec hi.keys with ⟨_, hall⟩ | ⟨l₁, f, l₂, hl, hsome, hf, hall⟩
    · rw [hall b hb] at hrb
      cases hrb
    have hq : q.cmdsn = (s.key f).2 := by
      rw [hadd.cmdsn, World.cmdsnFor, if_pos himm, hsome]
    have hfmem : f ∈ s.world.iscsi.outqueue := by rw [hl]; simp
    have hle : s.off base f ≤ s.off base b := by
      have hdep := hi.departs
      rw [hl] at hb hdep
      rcases List.mem_append.1 hb with hb₁ | hb₂
      · rw [hall b hb₁] at hrb
        cases hrb
      · rcases List.mem_cons.1 hb₂ with rfl | hb₂
        · exact le_refl _
        · have hnum := (List.pairwise_cons.1
            (List.pairwise_append.1 (List.pairwise_append.1 hdep.numbered).2.1).2.1).1 b hb₂ hrb
          have hlead := (List.pairwise_cons.1
            (List.pairwise_append.1 hdep.leading).2.1).1 b hb₂
          by_cases hfl : s.role f = .leading
          · exact hlead hfl hrb
          · exact Nat.le_of_lt (hnum hfl)
    rw [QueueHistory.off, QueueHistory.off, hself, hold b (hmem b hb), Pdu.key, hq]
    exact hle

/-- **Adding a PDU keeps the invariant.** -/
theorem HistoryInv.add : HistoryInv base (s.add a q w') := by
  have hself : (s.add a q w').key a = q.key := key_add_self
  have hold : ∀ b ∈ s.added, (s.add a q w').key b = s.key b := fun b hb =>
    key_add_of_mem hsub hb
  refine ⟨departs_add hi hsub hadd, fun b hb => ?_, fun b hb => ?_, fun b hb => ?_,
    fun b hb hr => ?_, fun x hx => ?_⟩
  · rcases mem_order_add hadd (List.mem_append_right _ hb) with rfl | hb'
    · refine ⟨q, hadd.self, hself.symm, fun himm => ?_⟩
      rw [hadd.opcode]
      refine hsub.immediate ?_
      rw [← Pdu.role_eq_leading, ← hadd.role, Pdu.role_eq_leading, himm]
    · have hne : b ≠ a := fun h => hsub.fresh (h ▸ hi.members b hb')
      have hb : b ∈ w'.iscsi.outqueue := hb
      rw [hadd.outqueue, (perm_insertBy ..).mem_iff, List.mem_cons] at hb
      obtain ⟨r, hr, hkey, himm⟩ := hi.keys b (hb.resolve_left hne)
      exact ⟨r, (hadd.pdus b hne).trans hr, by rw [hkey, hold b (hi.members b hb')], himm⟩
  · exact List.mem_append.2 ((mem_order_add hadd hb).symm.imp (hi.members b)
      List.mem_singleton.2)
  · rcases List.mem_append.1 hb with hb | hb
    · rw [QueueHistory.off, hold b hb]
      exact hi.window b hb
    · obtain rfl := List.mem_singleton.1 hb
      rw [QueueHistory.off, hself, Pdu.key, hadd.cmdsn]
      exact hi.cmdsnFor_window hsub.window
  · have hlift : ∀ {n : UInt32}, (∃ c ∈ s.added, s.key c = (.numbered, n)) →
        ∃ c ∈ (s.add a q w').added, (s.add a q w').key c = (.numbered, n) := by
      rintro n ⟨c, hc, hk⟩
      exact ⟨c, List.mem_append_left _ hc, by rw [hold c hc, hk]⟩
    rcases List.mem_append.1 hb with hb | hb
    · rw [QueueHistory.role, hold b hb] at hr
      rw [hold b hb]
      exact hlift (hi.owners b hb hr)
    · obtain rfl := List.mem_singleton.1 hb
      rw [QueueHistory.role, hself, Pdu.key] at hr
      have hpr : p.role = .trailing := by rw [← hadd.role]; exact hr
      have hq : q.cmdsn = p.cmdsn := by
        rw [hadd.cmdsn, World.cmdsnFor, if_neg fun himm => by
          rw [← Pdu.role_eq_leading, hpr] at himm
          cases himm]
      rw [hself, Pdu.key, hq]
      exact hlift (hsub.dataOut hpr)
  · rcases List.mem_append.1 hx with hx | hx
    · exact (hi.jumped x hx).trans (sublist_order_add hadd)
    · unfold QueueHistory.jumps at hx
      split at hx
      · next himm =>
        obtain ⟨b, hb, rfl⟩ := List.mem_map.1 hx
        obtain ⟨hb, hrb⟩ := List.mem_filter.1 hb
        have hbm := hi.members b (List.mem_append_right _ hb)
        have hlead : (s.add a q w').role a = .leading := by
          rw [QueueHistory.role, hself, Pdu.key]
          exact Pdu.role_eq_leading.2 himm
        have := Departs.leading_before (stopsAt_add hi hsub hadd) hlead hb (by
          rw [QueueHistory.role, hold b hbm]
          have hrb : s.role b = .numbered := by simpa using hrb
          rw [show (s.key b).1 = .numbered from hrb]
          simp)
        refine List.Sublist.trans ?_ (List.sublist_append_right ..)
        change [a, b].Sublist w'.iscsi.outqueue
        rwa [hadd.outqueue]
      · cases hx

/-- A PDU that is added overtakes none with its key exactly under the condition. -/
theorem fifo_add_iff (hp : s.world.pdus a = some p) (hf : Fifo s.key s.added s.order) :
    Fifo (s.add a q w').key (s.add a q w').added (s.add a q w').order ↔ QueueGood (.add a) s := by
  have hself : (s.add a q w').key a = q.key := key_add_self
  have hold : ∀ b ∈ s.order, (s.add a q w').key b = s.key b := fun b hb =>
    key_add_of_mem hsub (hi.members b hb)
  have hqueue : ∀ b ∈ s.world.iscsi.outqueue, b ∈ s.order := fun b hb => List.mem_append_right _ hb
  have hq : q.key = (p.role, s.world.cmdsnFor p) := by rw [Pdu.key, hadd.role, hadd.cmdsn]
  have hstops := stopsAt_add hi hsub hadd
  have hf' : Fifo (s.add a q w').key s.added (s.left ++ s.world.iscsi.outqueue) :=
    List.Pairwise.imp_of_mem (fun {b c} hb hc h => by rw [hold b hb, hold c hc]; exact h) hf
  have hiff := fifo_insertBy_iff (p := w'.stopsAt q) hf' hi.members hsub.fresh fun b hb hp hk => by
    rcases (hstops b hb).1 hp with hlt | ⟨hla, hlb⟩
    · rw [QueueHistory.off, QueueHistory.off, hk] at hlt
      exact Nat.lt_irrefl _ hlt
    · rw [QueueHistory.role, hk] at hlb
      exact hlb hla
  change Fifo _ (s.added ++ [a]) (s.left ++ w'.iscsi.outqueue) ↔ _
  rw [hadd.outqueue, hiff]
  -- the condition in the terms of the state before
  have hcond : ∀ b ∈ s.world.iscsi.outqueue, w'.stopsAt q b = true ↔
      iscsiSerial32Compare (s.world.cmdsnFor p) (s.key b).2 < 0 ∨
        p.role = .leading ∧ s.role b ≠ .leading := fun b hb => by
    have hbm := hi.members b (hqueue b hb)
    rw [iscsiSerial32Compare_lt (hi.cmdsnFor_window hsub.window) (hi.window b hbm), hstops b hb,
      QueueHistory.off, QueueHistory.off, QueueHistory.role, QueueHistory.role, hself,
      hold b (hqueue b hb), hq]
    rfl
  constructor
  · intro h p' hp'
    obtain rfl := Option.some.inj (hp'.symm.trans hp)
    refine h.imp_of_mem fun {b c} hb hc h hstop => ?_
    rw [← hold c (hqueue c hc), ← hq, ← hself]
    exact h ((hcond b hb).2 hstop)
  · intro h
    refine (h p hp).imp_of_mem fun {b c} hb hc h hstop => ?_
    rw [hold c (hqueue c hc), hself, hq]
    exact h ((hcond b hb).1 hstop)

end

/-! ## The steps -/

/-- Removing the head leaves the order of departure as it is. -/
theorem order_remove {rest : List Addr} (h : s.world.iscsi.outqueue = a :: rest) :
    QueueHistory.order
        { s with world := s.world.modify (·.setOutqueue rest), left := s.left ++ [a] }
      = s.order := by
  simp [QueueHistory.order, h]

/-- **Every step keeps the invariant.** -/
theorem HistoryInv.step {act : QueueAct} (hi : HistoryInv base s)
    (h : QueueStep base act s s') : HistoryInv base s' := by
  cases act with
  | add a =>
    obtain ⟨p, q, w', hp, hsub, henq, hq, rfl⟩ := h
    exact hi.add hsub (hi.added hsub.fresh hp henq hq)
  | remove =>
    obtain ⟨a, rest, hl, rfl⟩ := h
    have horder := order_remove (s := s) hl
    have hdep := hi.departs
    have hkeys := hi.keys
    rw [hl] at hdep hkeys
    refine ⟨hdep.leave, fun b hb => hkeys b (List.mem_cons_of_mem a hb), ?_, hi.window, hi.owners,
      ?_⟩
    · rw [horder]
      exact hi.members
    · rw [horder]
      exact hi.jumped
  | other =>
    obtain ⟨w', hout, hpdus, rfl⟩ := h
    have horder : QueueHistory.order { s with world := w' } = s.order := by
      simp [QueueHistory.order, hout]
    refine ⟨?_, fun b hb => ?_, ?_, hi.window, hi.owners, ?_⟩
    · change Departs s.role (s.off base) s.left w'.iscsi.outqueue
      rw [hout]
      exact hi.departs
    · have hb : b ∈ w'.iscsi.outqueue := hb
      rw [hout] at hb
      obtain ⟨r, hr, hkey, himm⟩ := hi.keys b hb
      obtain ⟨q, hq, hqkey, hqop⟩ := hpdus b hb r hr
      refine ⟨q, hq, hqkey.trans hkey, fun h => ?_⟩
      rw [hqop]
      refine himm ?_
      have hrole : q.role = r.role := congrArg Prod.fst hqkey
      rw [← Pdu.role_eq_leading, ← hrole, Pdu.role_eq_leading, h]
    · rw [horder]
      exact hi.members
    · rw [horder]
      exact hi.jumped

/-- Whatever is added, only the order of PDUs with the same role and CmdSN can be wrong. -/
theorem HistoryInv.order_iff (hi : HistoryInv base s) :
    OutqueueOrder s ↔ Fifo s.key s.added s.order := by
  refine ⟨OutqueueOrder.fifo, fun hf => ⟨?_, hf, ?_, hi.jumped⟩⟩
  · refine hi.departs.numbered.imp_of_mem fun {b c} hb hc h hrb hrc => ?_
    rw [iscsiSerial32Compare_lt (hi.window b (hi.members b hb)) (hi.window c (hi.members c hc))]
    exact h hrc (by simp [hrb])
  · refine hi.departs.numbered.imp fun {b c} h hrb hrc heq => ?_
    have hlt := h hrc (by simp [hrb])
    rw [QueueHistory.off, QueueHistory.off, heq] at hlt
    exact Nat.lt_irrefl _ hlt

/-- A step keeps the order exactly if it is good. -/
theorem HistoryInv.step_iff {act : QueueAct} (hi : HistoryInv base s) (ho : OutqueueOrder s)
    (h : QueueStep base act s s') : OutqueueOrder s' ↔ QueueGood act s := by
  rw [(hi.step h).order_iff]
  have hf := ho.fifo
  cases act with
  | add a =>
    obtain ⟨p, q, w', hp, hsub, henq, hq, rfl⟩ := h
    exact fifo_add_iff hi hsub (hi.added hsub.fresh hp henq hq) hp hf
  | remove =>
    obtain ⟨a, rest, hl, rfl⟩ := h
    rw [order_remove hl]
    exact iff_of_true hf trivial
  | other =>
    obtain ⟨w', hout, _, rfl⟩ := h
    have horder : QueueHistory.order { s with world := w' } = s.order := by
      simp [QueueHistory.order, hout]
    rw [horder]
    exact iff_of_true hf trivial

end

/-! ## The order in every run -/

/-- A history that begins with an empty queue. -/
def QueueHistory.start (w : World) : QueueHistory where
  world := w

theorem historyInv_start {base : UInt32} {w : World} (h : w.iscsi.outqueue = []) :
    HistoryInv base (QueueHistory.start w) := by
  refine ⟨⟨?_, ?_⟩, ?_, ?_, ?_, ?_, ?_⟩ <;> simp [QueueHistory.start, QueueHistory.order, h]

/-- **The PDUs of a connection leave `outqueue` in order exactly when no PDU is added while one
with its role and its CmdSN stands behind one with a greater CmdSN**, or, where the PDU is
immediate, behind one that is not. -/
theorem outqueueOrder_iff {base : UInt32} {w : World} {l : List (QueueAct × QueueHistory)}
    (hw : w.iscsi.outqueue = []) (h : Trail (QueueStep base) (QueueHistory.start w) l) :
    (∀ x ∈ l, OutqueueOrder x.2) ↔ Trail.AllGood QueueGood (QueueHistory.start w) l := by
  have hi : HistoryInv base (QueueHistory.start w) := historyInv_start hw
  refine Trail.forall_iff (fun _ _ _ hi h => hi.step h) (fun _ _ _ hi ho h => hi.step_iff ho h) h
    hi ?_
  exact hi.order_iff.2 (by simp [Fifo, QueueHistory.start, QueueHistory.order, hw])

/-! ## A DATA-OUT that overtakes another of its task -/

/-- A PDU with this first byte and CmdSN. -/
def numberedPdu (opcode : UInt8) (cmdsn : UInt32) : Pdu where
  outdata := opcode :: List.replicate 47 0
  cmdsn := cmdsn

/-- The command with CmdSN 5 (0), two of its DATA-OUTs (1 and 3), an immediate PDU (2), and the
command with CmdSN 6 (4). -/
def fivePdus : World where
  pdus
    | 0 => some (numberedPdu iscsiPduScsiRequest 5)
    | 1 | 3 => some (numberedPdu iscsiPduDataOut 5)
    | 2 => some (numberedPdu (iscsiPduNopOut ||| iscsiPduImmediate) 6)
    | 4 => some (numberedPdu iscsiPduScsiRequest 6)
    | _ => none

/-- The history after a PDU of a history was added. -/
def QueueHistory.push (s : QueueHistory) (a : Addr) : QueueHistory :=
  match enqueue s.world a with
  | .ok w' => match w'.pdus a with
    | some q => s.add a q w'
    | none => s
  | .error _ => s

/-- The history after the head of the queue was removed. -/
def QueueHistory.pop (s : QueueHistory) : QueueHistory :=
  match s.world.iscsi.outqueue with
  | a :: rest => { s with world := s.world.modify (·.setOutqueue rest), left := s.left ++ [a] }
  | [] => s

/-- A PDU that the callers may add is added. -/
theorem QueueHistory.push_step {base : UInt32} {s : QueueHistory} {a : Addr} {p : Pdu}
    (hp : s.world.pdus a = some p) (hsub : s.Submits base a p)
    (h : (s.push a).added = s.added ++ [a]) : QueueStep base (.add a) s (s.push a) := by
  unfold QueueHistory.push at h ⊢
  split at h
  · next w' henq =>
    split at h
    · next q hq =>
      exact ⟨p, q, w', hp, hsub, henq, hq, rfl⟩
    · simp at h
  · simp at h

/-- The first command is added. -/
theorem fivePdus_command :
    QueueStep 0 (.add 0) (QueueHistory.start fivePdus) ((QueueHistory.start fivePdus).push 0) :=
  QueueHistory.push_step rfl ⟨by decide, by decide, by simp [QueueHistory.start],
    by decide, by decide⟩ rfl

/-- A command that is added to an empty queue leaves in order. -/
theorem outqueueOrder_one : OutqueueOrder ((QueueHistory.start fivePdus).push 0) :=
  (outqueueOrder_iff rfl (.cons fivePdus_command .nil)).2 ⟨by
    rintro p -
    exact List.Pairwise.nil, trivial⟩ _ List.mem_cons_self

/-- The history after the first command was added and has left. -/
def commandSent : QueueHistory := ((QueueHistory.start fivePdus).push 0).pop

/-- The history after the first DATA-OUT, the second command and the immediate PDU were added. -/
def threeQueued : QueueHistory := ((commandSent.push 1).push 4).push 2

/-- A trail that begins with adding a PDU. -/
theorem Trail.add {base : UInt32} {s : QueueHistory} {a : Addr} {p : Pdu}
    {l : List (QueueAct × QueueHistory)} (hl : Trail (QueueStep base) (s.push a) l)
    (hp : s.world.pdus a = some p) (hsub : s.Submits base a p)
    (h : (s.push a).added = s.added ++ [a]) :
    Trail (QueueStep base) s ((.add a, s.push a) :: l) :=
  .cons (QueueHistory.push_step hp hsub h) hl

/-- The first DATA-OUT, the second command, the immediate PDU and the second DATA-OUT are added. -/
theorem fivePdus_trail : Trail (QueueStep 0) (QueueHistory.start fivePdus)
    [(.add 0, (QueueHistory.start fivePdus).push 0), (.remove, commandSent),
      (.add 1, commandSent.push 1), (.add 4, (commandSent.push 1).push 4),
      (.add 2, threeQueued), (.add 3, threeQueued.push 3)] := by
  refine .cons fivePdus_command (.cons ⟨0, [], rfl, rfl⟩ ?_)
  refine Trail.add (Trail.add (Trail.add (Trail.add .nil rfl ?_ rfl) rfl ?_ rfl) rfl ?_ rfl) rfl
    ?_ rfl
  all_goals exact ⟨by decide, by decide, by decide, by decide, by decide⟩

/-- The second DATA-OUT is in front of the first: the immediate PDU, which has the CmdSN of the
second command, stopped its insertion. -/
theorem outqueueOrder_overtaken : ¬∀ (base : UInt32) (w : World)
    (l : List (QueueAct × QueueHistory)), w.iscsi.outqueue = [] →
      Trail (QueueStep base) (QueueHistory.start w) l → ∀ x ∈ l, OutqueueOrder x.2 := by
  intro h
  have hfifo := (h 0 fivePdus _ rfl fivePdus_trail (.add 3, threeQueued.push 3) (by simp)).fifo
  have hovertaken : (threeQueued.push 3).key 3 = (threeQueued.push 3).key 1 →
      [3, 1].Sublist (threeQueued.push 3).added :=
    List.pairwise_iff_forall_sublist.1 hfifo (by decide)
  exact absurd (hovertaken (by decide)) (by decide)

end Libiscsi
