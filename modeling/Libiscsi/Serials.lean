import Libiscsi.LoginStatsn

/-!
# The numbers a target announces

`iscsi_process_pdu_serials` (`lib/pdu.c`) for any PDU. The window of the target, the next CmdSN it
expects and the last StatSN only move forward, in the arithmetic of serial numbers. As long as the
numbers of a run stay within half of the circle each of the three is the latest that has been
announced, in whatever order the PDUs were processed (`serials_latest`, `serials_perm`).
-/

namespace Libiscsi

/-- `in->hdr[1] & ISCSI_PDU_DATA_CONTAINS_STATUS`. -/
def InPdu.containsStatus (inPdu : InPdu) : Bool := inPdu.flags &&& iscsiPduDataContainsStatus ≠ 0

/-- A Login Response with a status class other than 0, whose numbers are invalid. -/
def InPdu.refusesLogin (inPdu : InPdu) : Bool :=
  inPdu.opcode = iscsiPduLoginResponse ∧ scsiGetUint16 inPdu.hdr 36 >>> 8 ≠ 0

/-- `iscsi_process_pdu_serials`. -/
def iscsiProcessAnyPduSerials (c : Context) (inPdu : InPdu) : Context :=
  if inPdu.refusesLogin then c
  else
    let c := { c with
      maxcmdsn := laterSerial (scsiGetUint32 inPdu.hdr 32) c.maxcmdsn
      expcmdsn := laterSerial (scsiGetUint32 inPdu.hdr 28) c.expcmdsn }
    if inPdu.opcode = iscsiPduDataIn ∧ ¬inPdu.containsStatus then c
    else { c with statsn := laterSerial inPdu.serialStatsn c.statsn }

/-- A Login Response is processed as in the login. -/
theorem iscsiProcessAnyPduSerials_login {c : Context} {inPdu : InPdu}
    (h : inPdu.opcode = iscsiPduLoginResponse) :
    iscsiProcessAnyPduSerials c inPdu = iscsiProcessPduSerials c inPdu := by
  unfold iscsiProcessAnyPduSerials iscsiProcessPduSerials
  have hdataIn : ¬(inPdu.opcode = iscsiPduDataIn ∧ ¬inPdu.containsStatus) := by
    rw [h]
    exact fun h' => absurd h'.1 (by decide)
  by_cases hstatus : scsiGetUint16 inPdu.hdr 36 >>> 8 = 0
  · have hrefuses : inPdu.refusesLogin = false := decide_eq_false fun h' => h'.2 hstatus
    rw [hrefuses, if_neg Bool.false_ne_true, if_neg (not_not.2 hstatus)]
    exact if_neg hdataIn
  · have hrefuses : inPdu.refusesLogin = true := decide_eq_true ⟨h, hstatus⟩
    rw [if_pos hrefuses, if_pos hstatus]

/-! ## The three numbers -/

/-- The numbers of a context that follow those of the target. -/
inductive Serial where
  | maxcmdsn | expcmdsn | statsn
  deriving DecidableEq, Repr

/-- The number in the context. -/
def Context.serial (c : Context) : Serial → UInt32
  | .maxcmdsn => c.maxcmdsn
  | .expcmdsn => c.expcmdsn
  | .statsn => c.statsn

/-- The number that a PDU announces, if it does. The StatSN is that of the last status. -/
def InPdu.announced (inPdu : InPdu) : Serial → Option UInt32
  | .maxcmdsn => if inPdu.refusesLogin then none else some (scsiGetUint32 inPdu.hdr 32)
  | .expcmdsn => if inPdu.refusesLogin then none else some (scsiGetUint32 inPdu.hdr 28)
  | .statsn =>
    if inPdu.refusesLogin ∨ inPdu.opcode = iscsiPduDataIn ∧ ¬inPdu.containsStatus then none
    else some inPdu.serialStatsn

/-- The PDUs are processed one after the other. -/
def processSerials (c : Context) (l : List InPdu) : Context := l.foldl iscsiProcessAnyPduSerials c

section
variable {c : Context} {inPdu : InPdu} {l : List InPdu}

/-- **One PDU.** -/
theorem serial_process (f : Serial) : (iscsiProcessAnyPduSerials c inPdu).serial f =
    match inPdu.announced f with
    | none => c.serial f
    | some sn => laterSerial sn (c.serial f) := by
  unfold iscsiProcessAnyPduSerials InPdu.announced
  cases hrefuses : inPdu.refusesLogin with
  | true => cases f <;> rfl
  | false =>
    by_cases hdataIn : inPdu.opcode = iscsiPduDataIn ∧ ¬inPdu.containsStatus
    · rw [if_neg Bool.false_ne_true, if_pos hdataIn]
      cases f with
      | maxcmdsn => rfl
      | expcmdsn => rfl
      | statsn =>
        simp only
        rw [if_pos (.inr hdataIn)]
        rfl
    · rw [if_neg Bool.false_ne_true, if_neg hdataIn]
      cases f with
      | maxcmdsn => rfl
      | expcmdsn => rfl
      | statsn =>
        simp only
        rw [if_neg fun h => h.elim Bool.false_ne_true hdataIn]
        rfl

/-- Nothing else of the context changes. -/
theorem process_frame : iscsiProcessAnyPduSerials c inPdu = { c with
    maxcmdsn := (iscsiProcessAnyPduSerials c inPdu).maxcmdsn
    expcmdsn := (iscsiProcessAnyPduSerials c inPdu).expcmdsn
    statsn := (iscsiProcessAnyPduSerials c inPdu).statsn } := by
  unfold iscsiProcessAnyPduSerials
  split
  · rfl
  · split <;> rfl

theorem processSerials_frame : processSerials c l = { c with
    maxcmdsn := (processSerials c l).maxcmdsn
    expcmdsn := (processSerials c l).expcmdsn
    statsn := (processSerials c l).statsn } := by
  unfold processSerials
  induction l generalizing c with
  | nil => rfl
  | cons inPdu l ih =>
    rw [List.foldl_cons]
    refine ih.trans ?_
    rw [@process_frame c inPdu]

/-- Two contexts with the same numbers and nothing else that differs. -/
theorem processSerials_eq {l' : List InPdu}
    (h : ∀ f, (processSerials c l).serial f = (processSerials c l').serial f) :
    processSerials c l = processSerials c l' := by
  have hmax : (processSerials c l).maxcmdsn = (processSerials c l').maxcmdsn := h .maxcmdsn
  have hexp : (processSerials c l).expcmdsn = (processSerials c l').expcmdsn := h .expcmdsn
  have hstat : (processSerials c l).statsn = (processSerials c l').statsn := h .statsn
  rw [processSerials_frame, @processSerials_frame c l', hmax, hexp, hstat]

end

/-! ## The latest number -/

/-- The number is ahead of the base by less than half of the circle. -/
def Ahead (base sn : UInt32) : Prop := (sn - base).toNat < 2 ^ 31

instance (base sn : UInt32) : Decidable (Ahead base sn) := inferInstanceAs (Decidable (_ < _))

/-- Of two numbers ahead of the base the later one is taken. -/
theorem laterSerial_ahead {base sn old : UInt32} (h : Ahead base sn) (h' : Ahead base old) :
    Ahead base (laterSerial sn old) ∧
      (laterSerial sn old - base).toNat = max (old - base).toNat (sn - base).toNat := by
  have hlt := iscsiSerial32Compare_lt h h'
  by_cases hneg : iscsiSerial32Compare sn old < 0
  · rw [laterSerial_of_neg hneg, max_eq_left (hlt.1 hneg).le]
    exact ⟨h', rfl⟩
  · rw [laterSerial_of_nonneg (not_lt.1 hneg), max_eq_right (not_lt.1 (mt hlt.2 hneg))]
    exact ⟨h, rfl⟩

section
variable {base : Serial → UInt32} {c : Context} {l : List InPdu}

/-- The numbers of the context and those that are announced are ahead of their bases. -/
structure AllAhead (base : Serial → UInt32) (c : Context) (l : List InPdu) : Prop where
  context : ∀ f, Ahead (base f) (c.serial f)
  announced : ∀ f, ∀ inPdu ∈ l, ∀ sn ∈ inPdu.announced f, Ahead (base f) sn

/-- **Each number is the latest that has been announced.** -/
theorem serials_latest (h : AllAhead base c l) (f : Serial) :
    ((processSerials c l).serial f - base f).toNat =
      (l.filterMap (·.announced f)).foldl (fun m sn => max m (sn - base f).toNat)
        (c.serial f - base f).toNat := by
  induction l generalizing c with
  | nil => rfl
  | cons inPdu l ih =>
    have hfirst := fun g => h.announced g inPdu List.mem_cons_self
    have hstep : AllAhead base (iscsiProcessAnyPduSerials c inPdu) l := by
      refine ⟨fun g => ?_, fun g q hq => h.announced g q (List.mem_cons_of_mem _ hq)⟩
      rw [serial_process]
      cases hsn : inPdu.announced g with
      | none => exact h.context g
      | some sn => exact (laterSerial_ahead (hfirst g sn hsn) (h.context g)).1
    refine (ih hstep).trans ?_
    rw [serial_process]
    cases hsn : inPdu.announced f with
    | none => rw [List.filterMap_cons_none (f := fun q : InPdu => q.announced f) hsn]
    | some sn =>
      rw [List.filterMap_cons_some (f := fun q : InPdu => q.announced f) hsn, List.foldl_cons]
      simp only
      rw [(laterSerial_ahead (hfirst f sn hsn) (h.context f)).2]

/-- **The order does not matter.** -/
theorem serials_perm (h : AllAhead base c l) {l' : List InPdu} (hperm : l.Perm l') :
    processSerials c l = processSerials c l' := by
  have h' : AllAhead base c l' :=
    ⟨h.context, fun f inPdu hin => h.announced f inPdu (hperm.mem_iff.2 hin)⟩
  refine processSerials_eq fun f => ?_
  have hsame : ((processSerials c l).serial f - base f).toNat =
      ((processSerials c l').serial f - base f).toNat := by
    rw [serials_latest h f, serials_latest h' f]
    have hcomm : RightCommutative fun (m : Nat) (sn : UInt32) => max m (sn - base f).toNat :=
      ⟨fun a b d => max_right_comm _ _ _⟩
    exact (hperm.filterMap _).foldl_eq _
  exact sub_left_injective (UInt32.toNat_inj.1 hsame)

end

/-- A NOP-In with ExpCmdSN, MaxCmdSN and StatSN. -/
def serialPdu (maxcmdsn expcmdsn statsn : UInt32) : InPdu where
  hdr := scsiSetUint32 (scsiSetUint32 (scsiSetUint32 (List.replicate 48 0) 24 statsn) 28 expcmdsn)
    32 maxcmdsn

/-- What it announces. -/
theorem serialPdu_announced (maxcmdsn expcmdsn statsn : UInt32) (f : Serial) :
    (serialPdu maxcmdsn expcmdsn statsn).announced f =
      some (match f with
        | .maxcmdsn => maxcmdsn
        | .expcmdsn => expcmdsn
        | .statsn => statsn) := by
  have hopcode : (serialPdu maxcmdsn expcmdsn statsn).opcode = 0 := by
    change byte (scsiSetUint32 _ _ _) 0 &&& 0x3f = 0
    rw [byte_scsiSetUint32 (by decide), byte_scsiSetUint32 (by decide),
      byte_scsiSetUint32 (by decide)]
    decide
  have hitt : (serialPdu maxcmdsn expcmdsn statsn).itt = 0 := by
    change scsiGetUint32 (scsiSetUint32 _ _ _) 16 = 0
    rw [scsiGetUint32_setUint32 (by decide), scsiGetUint32_setUint32 (by decide),
      scsiGetUint32_setUint32 (by decide)]
    decide
  have hrefuses : (serialPdu maxcmdsn expcmdsn statsn).refusesLogin = false := by
    unfold InPdu.refusesLogin
    rw [hopcode]
    exact decide_eq_false fun h => absurd h.1 (by decide)
  have hdataIn : ¬(0 = iscsiPduDataIn) := by decide
  unfold InPdu.announced
  rw [hrefuses, hopcode]
  cases f with
  | maxcmdsn =>
    change some (scsiGetUint32 (scsiSetUint32 _ _ _) 32) = some maxcmdsn
    rw [scsiGetUint32_set (by simp)]
  | expcmdsn =>
    change some (scsiGetUint32 (scsiSetUint32 _ _ _) 28) = some expcmdsn
    rw [scsiGetUint32_setUint32 (by decide), scsiGetUint32_set (by simp)]
  | statsn =>
    simp only
    rw [if_neg fun h => h.elim Bool.false_ne_true fun h => hdataIn h.1]
    unfold InPdu.serialStatsn
    rw [hitt]
    change some (scsiGetUint32 (scsiSetUint32 _ _ _) 24) = some statsn
    rw [scsiGetUint32_setUint32 (by decide), scsiGetUint32_setUint32 (by decide),
      scsiGetUint32_set (by simp)]

/-- Two PDUs around the end of the circle. -/
theorem wrapping_ahead : AllAhead (fun _ => 0xfffffff0) { maxcmdsn := 0xfffffff8
                                                          expcmdsn := 0xfffffff8
                                                          statsn := 0xfffffff8 }
    [serialPdu 7 3 2, serialPdu 5 0xffffffff 1] := by
  constructor
  · intro f
    cases f <;> exact (by decide : Ahead 0xfffffff0 0xfffffff8)
  · intro f q hq sn hsn
    rcases List.mem_cons.1 hq with rfl | hq
    · rw [serialPdu_announced, Option.mem_some_iff] at hsn
      subst hsn
      cases f <;> decide
    · obtain rfl := List.mem_singleton.1 hq
      rw [serialPdu_announced, Option.mem_some_iff] at hsn
      subst hsn
      cases f <;> decide

theorem serials_perm_wrapping :
    processSerials { maxcmdsn := 0xfffffff8, expcmdsn := 0xfffffff8, statsn := 0xfffffff8 }
      [serialPdu 7 3 2, serialPdu 5 0xffffffff 1] =
    processSerials { maxcmdsn := 0xfffffff8, expcmdsn := 0xfffffff8, statsn := 0xfffffff8 }
      [serialPdu 5 0xffffffff 1, serialPdu 7 3 2] :=
  serials_perm wrapping_ahead (List.Perm.swap _ _ _)

theorem serials_latest_wrapping :
    ((processSerials { maxcmdsn := 0xfffffff8, expcmdsn := 0xfffffff8, statsn := 0xfffffff8 }
      [serialPdu 7 3 2, serialPdu 5 0xffffffff 1]).serial .maxcmdsn - 0xfffffff0).toNat = 23 :=
  serials_latest wrapping_ahead .maxcmdsn

end Libiscsi
