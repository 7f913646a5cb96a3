import Libiscsi.CancelSpec
import Libiscsi.Command
import Libiscsi.Lib.Numbering

/-!
# What queueing a PDU does

The specifications of `iscsi_allocate_pdu`, `iscsi_pdu_set_cmdsn` and `enqueue`, the part of
`iscsi_add_to_outqueue` before `service` is called. The loop that inserts a PDU is the sorted
insertion `Numbering.insertBy`.
-/

namespace Libiscsi

/-! ## Allocation -/

/-- A PDU was allocated and is `p`. -/
def World.allocated (w : World) (p : Pdu) : World :=
  { w with
    allocs := w.allocs.drop 2
    pdus := Function.update w.pdus w.brk (some p)
    brk := w.brk + 1 }

@[simp] theorem World.allocated_pdus_self (w : World) (p : Pdu) :
    (w.allocated p).pdus w.brk = some p := Function.update_self ..

section
variable {w w' : World} {a : Addr} {opcode responseOpcode : UInt8} {itt flags : UInt32}

/-- The two calls of `malloc` decide. -/
theorem iscsiAllocatePdu_eq :
    iscsiAllocatePdu w opcode responseOpcode itt flags =
      if w.allocs.headD true then
        if w.allocs.tail.headD true then
          (some w.brk, w.allocated (w.iscsi.freshPdu opcode responseOpcode itt flags))
        else (none, (({ w with allocs := w.allocs.drop 2 } : World).newPdu {}).release w.brk)
      else (none, { w with allocs := w.allocs.tail }) := by
  have htail : w.allocs.tail.tail = w.allocs.drop 2 := by simp [← List.drop_one]
  unfold iscsiAllocatePdu
  rw [World.malloc_eq]
  cases w.allocs.headD true
  · rfl
  simp only [World.malloc_eq, Bool.not_true, Bool.false_eq_true, if_false, if_true]
  cases w.allocs.tail.headD true
  · simp only [Bool.not_false, if_true, Bool.false_eq_true, if_false, htail]
  · simp only [Bool.not_true, Bool.false_eq_true, if_false, if_true, World.newPdu,
      World.allocated, htail]

/-- An allocation that succeeds hands out the next address. -/
theorem iscsiAllocatePdu_some
    (h : iscsiAllocatePdu w opcode responseOpcode itt flags = (some a, w')) :
    a = w.brk ∧ w' = w.allocated (w.iscsi.freshPdu opcode responseOpcode itt flags) := by
  rw [iscsiAllocatePdu_eq] at h
  split_ifs at h
  · obtain ⟨ha, hw⟩ := Prod.mk.inj h
    exact ⟨(Option.some.inj ha).symm, hw.symm⟩
  · cases (Prod.mk.inj h).1
  · cases (Prod.mk.inj h).1

/-- The PDU that was allocated. -/
theorem iscsiAllocatePdu_deref {p : Pdu}
    (h : iscsiAllocatePdu w opcode responseOpcode itt flags = (some a, w'))
    (hd : w'.deref a = .ok p) : p = w.iscsi.freshPdu opcode responseOpcode itt flags := by
  obtain ⟨rfl, rfl⟩ := iscsiAllocatePdu_some h
  rw [World.deref_eq_ok, World.allocated_pdus_self] at hd
  exact (Option.some.inj hd).symm

/-- An allocation that fails leaves no PDU. -/
theorem iscsiAllocatePdu_none
    (h : iscsiAllocatePdu w opcode responseOpcode itt flags = (none, w')) :
    ∃ allocs, w' = { w with allocs } ∨
      w' = (({ w with allocs } : World).newPdu {}).release w.brk := by
  rw [iscsiAllocatePdu_eq] at h
  split_ifs at h
  · cases (Prod.mk.inj h).1
  · exact ⟨_, .inr (Prod.mk.inj h).2.symm⟩
  · exact ⟨_, .inl (Prod.mk.inj h).2.symm⟩

/-- An allocation succeeds when both calls of `malloc` do. -/
theorem iscsiAllocatePdu_ok (hal : ∀ b ∈ w.allocs.take 2, b = true) :
    iscsiAllocatePdu w opcode responseOpcode itt flags =
      (some w.brk, w.allocated (w.iscsi.freshPdu opcode responseOpcode itt flags)) := by
  have h₁ : w.allocs.headD true = true := by
    rcases hw : w.allocs with _ | ⟨b, rest⟩
    · rfl
    · exact hal b (by simp [hw])
  have h₂ : w.allocs.tail.headD true = true := by
    rcases hw : w.allocs with _ | ⟨b, _ | ⟨b', rest⟩⟩
    · rfl
    · rfl
    · exact hal b' (by simp [hw])
  rw [iscsiAllocatePdu_eq, h₁, h₂, if_pos rfl, if_pos rfl]

end

section
variable (c : Context) (opcode responseOpcode : UInt8) (itt flags : UInt32)

theorem iscsiHeaderSize_ge (headerDigest : DigestMode) : 48 ≤ iscsiHeaderSize headerDigest :=
  Nat.le_add_right ..

/-- A new PDU is a header, with room for a digest if headers have digests. -/
@[simp] theorem freshPdu_length :
    (c.freshPdu opcode responseOpcode itt flags).outdata.length =
      iscsiHeaderSize c.headerDigest := by
  unfold Context.freshPdu
  simp only [Pdu.setItt, Pdu.setField, length_scsiSetUint32]
  split <;> simp

/-- The first byte of a new PDU is its opcode. -/
@[simp] theorem byte_freshPdu :
    byte (c.freshPdu opcode responseOpcode itt flags).outdata 0 = opcode := by
  have hsize := iscsiHeaderSize_ge c.headerDigest
  have hop : byte ((List.replicate (iscsiHeaderSize c.headerDigest) 0).set 0 opcode) 0 = opcode :=
    byte_set_eq (by simp; omega)
  unfold Context.freshPdu
  simp only [Pdu.setItt, Pdu.setField]
  rw [byte_scsiSetUint32 (by omega)]
  split
  · rw [byte_copyBytes (by omega), hop]
  · exact hop

end

/-! ## The CmdSN of a PDU -/

/-- `iscsi_pdu_set_cmdsn` writes to the PDU, and to its task. -/
theorem iscsiPduSetCmdsn_eq_ok {w w' : World} {a : Addr} {cmdsn : UInt32}
    (h : iscsiPduSetCmdsn w a cmdsn = .ok w') :
    ∃ p, w.pdus a = some p ∧ w' = w.put w.iscsi
        (Function.update w.pdus a (some (p.setCmdsn cmdsn))) w'.tasks w.trace ∧
      TasksRenumbered w.tasks w'.tasks := by
  unfold iscsiPduSetCmdsn at h
  obtain ⟨p, hp, h⟩ := Outcome.bind_eq_ok.1 h
  rw [World.deref_eq_ok] at hp
  refine ⟨p, hp, ?_⟩
  rcases ht : p.scsiCbdata.task with _ | t
  · rw [ht] at h
    obtain rfl := Except.ok.inj h
    exact ⟨rfl, .refl _⟩
  · rw [ht] at h
    obtain rfl := Except.ok.inj h
    refine ⟨rfl, fun t' => ?_⟩
    by_cases htt : t' = t
    · subst htt
      exact ⟨_, _, Function.update_self ..⟩
    · exact ⟨_, _, Function.update_of_ne htt ..⟩

/-! ## Insertion -/

/-- The loop that inserts a PDU stops at the PDU at an address. -/
def World.stopsAt (w : World) (pdu : Pdu) (b : Addr) : Bool :=
  match w.pdus b with
  | some current =>
    decide (iscsiSerial32Compare pdu.cmdsn current.cmdsn < 0) ||
      (pdu.immediate && !current.immediate)
  | none => false

/-- The loop is a sorted insertion. -/
theorem insertPdu_eq {w : World} {a : Addr} {pdu : Pdu} : ∀ {l l' : List Addr},
    insertPdu w a pdu l = .ok l' → l' = Numbering.insertBy (w.stopsAt pdu) a l
  | [], l', h => (Except.ok.inj h).symm
  | b :: l, l', h => by
    unfold insertPdu at h
    obtain ⟨current, hb, h⟩ := Outcome.bind_eq_ok.1 h
    rw [World.deref_eq_ok] at hb
    have hstop : w.stopsAt pdu b = true ↔ iscsiSerial32Compare pdu.cmdsn current.cmdsn < 0 ∨
        (pdu.immediate ∧ ¬current.immediate) := by
      simp [World.stopsAt, hb]
    rw [Numbering.insertBy]
    split at h
    · rename_i hs
      rw [if_pos (hstop.2 hs)]
      exact (Except.ok.inj h).symm
    · rename_i hs
      rw [if_neg (mt hstop.1 hs)]
      obtain ⟨rest, hr, h⟩ := Outcome.bind_eq_ok.1 h
      rw [← insertPdu_eq hr]
      exact (Except.ok.inj h).symm

/-- The loop returns on a queue of live PDUs. -/
theorem insertPdu_ok {w : World} {a : Addr} {pdu : Pdu} : ∀ {l : List Addr},
    (∀ b ∈ l, (w.pdus b).isSome) →
    insertPdu w a pdu l = .ok (Numbering.insertBy (w.stopsAt pdu) a l)
  | [], _ => rfl
  | b :: l, hl => by
    obtain ⟨current, hb⟩ := Option.isSome_iff_exists.1 (hl b (by simp))
    have ih : insertPdu w a pdu l = _ := insertPdu_ok fun c hc => hl c (List.mem_cons_of_mem _ hc)
    have hstop : w.stopsAt pdu b = true ↔ iscsiSerial32Compare pdu.cmdsn current.cmdsn < 0 ∨
        (pdu.immediate ∧ ¬current.immediate) := by
      simp [World.stopsAt, hb]
    rw [insertPdu, World.deref_eq_ok.2 hb, Outcome.ok_bind, ih, Numbering.insertBy]
    by_cases hs : w.stopsAt pdu b = true
    · rw [if_pos (hstop.1 hs), if_pos hs]
    · rw [if_neg (mt hstop.2 hs), if_neg hs]
      rfl

/-- The loop that looks for a CmdSN looks at the PDUs of the queue only. -/
theorem firstCmdsn_congr {w w' : World} : ∀ {l : List Addr},
    (∀ b ∈ l, w'.pdus b = w.pdus b) → firstCmdsn w' l = firstCmdsn w l
  | [], _ => rfl
  | b :: l, h => by
    have ih := firstCmdsn_congr fun c hc => h c (List.mem_cons_of_mem _ hc)
    simp only [firstCmdsn, World.deref, h b (by simp), ih]

/-- What queueing a PDU that is not in the queue does: it gets its timeout, an immediate PDU the
CmdSN of the first PDU of the queue that is not a DATA-OUT, and it is inserted. -/
theorem enqueue_spec {w w' : World} {a : Addr} (ha : a ∉ w.iscsi.outqueue)
    (h : enqueue w a = .ok w') :
    ∃ p q, w.pdus a = some p ∧
      (q = { p with scsiTimeout := w.timeoutOf } ∧
          (p.immediate → firstCmdsn w w.iscsi.outqueue = .ok none) ∨
        ∃ cmdsn, p.immediate ∧ firstCmdsn w w.iscsi.outqueue = .ok (some cmdsn) ∧
          q = ({ p with scsiTimeout := w.timeoutOf } : Pdu).setCmdsn cmdsn) ∧
      w' = w.put
        (w.iscsi.setOutqueue (Numbering.insertBy (w'.stopsAt q) a w.iscsi.outqueue))
        (Function.update w.pdus a (some q)) w'.tasks (w.trace ++ [.queued a q]) ∧
      TasksRenumbered w.tasks w'.tasks := by
  unfold enqueue at h
  obtain ⟨p, hp, h⟩ := Outcome.bind_eq_ok.1 h
  rw [World.deref_eq_ok] at hp
  set p₁ : Pdu := { p with scsiTimeout := w.timeoutOf } with hp₁
  obtain ⟨w₁, hw₁, h⟩ := Outcome.bind_eq_ok.1 h
  have hfirst : firstCmdsn (w.setPdu a p₁) w.iscsi.outqueue = firstCmdsn w w.iscsi.outqueue :=
    firstCmdsn_congr fun b hb => Function.update_of_ne (ne_of_mem_of_not_mem hb ha) ..
  -- the PDU as it is inserted, and the world it is inserted in
  have hq : ∃ q, w₁ = w.put w.iscsi (Function.update w.pdus a (some q)) w₁.tasks w.trace ∧
      TasksRenumbered w.tasks w₁.tasks ∧
      (q = p₁ ∧ (p.immediate → firstCmdsn w w.iscsi.outqueue = .ok none) ∨
        ∃ cmdsn, p.immediate ∧ firstCmdsn w w.iscsi.outqueue = .ok (some cmdsn) ∧
          q = p₁.setCmdsn cmdsn) := by
    unfold immediateCmdsn at hw₁
    split at hw₁
    · rename_i himm
      obtain ⟨r, hr, hw₁⟩ := Outcome.bind_eq_ok.1 hw₁
      rw [World.setPdu_iscsi, hfirst] at hr
      cases r with
      | some cmdsn =>
        obtain ⟨p', hp', hframe, htasks⟩ := iscsiPduSetCmdsn_eq_ok hw₁
        rw [World.setPdu_pdus, Function.update_self, Option.some.injEq] at hp'
        subst hp'
        refine ⟨p₁.setCmdsn cmdsn, hframe.trans ?_, htasks, .inr ⟨cmdsn, himm, hr, rfl⟩⟩
        rw [World.setPdu_pdus, Function.update_idem]
        rfl
      | none =>
        obtain rfl := Except.ok.inj hw₁
        exact ⟨p₁, rfl, .refl _, .inl ⟨rfl, fun _ => hr⟩⟩
    · rename_i himm
      obtain rfl := Except.ok.inj hw₁
      exact ⟨p₁, rfl, .refl _, .inl ⟨rfl, fun h => absurd h himm⟩⟩
  obtain ⟨q, hframe, htasks, hcases⟩ := hq
  have hq₁ : w₁.pdus a = some q := by rw [hframe, World.put_pdus, Function.update_self]
  rw [World.deref_eq_ok.2 hq₁, Outcome.ok_bind] at h
  obtain ⟨outqueue, hins, h⟩ := Outcome.bind_eq_ok.1 h
  obtain rfl := Except.ok.inj h
  refine ⟨p, q, hp, hcases, ?_, htasks⟩
  have hiscsi : w₁.iscsi = w.iscsi := by rw [hframe]; rfl
  have hout := insertPdu_eq hins
  rw [hiscsi] at hout
  refine (congrArg (fun v : World => (v.modify (·.setOutqueue outqueue)).log (.queued a q))
    hframe).trans ?_
  rw [hout]
  rfl

/-- A PDU is queued, and `service` may be called after that. -/
theorem iscsiAddToOutqueue_cases {service : World → Res World} {w w' : World} {a : Addr}
    (h : iscsiAddToOutqueue service w a = .ok w') :
    ∃ w₁, enqueue w a = .ok w₁ ∧ (w' = w₁ ∨ service w₁ = .ok w') := by
  unfold iscsiAddToOutqueue at h
  obtain ⟨w₁, h₁, h⟩ := Outcome.bind_eq_ok.1 h
  refine ⟨w₁, h₁, ?_⟩
  split at h
  · exact .inr h
  · exact .inl (Except.ok.inj h).symm

/-! ## The header of a command and of a DATA-OUT -/

section
variable (pdu cmd : Pdu) (c : Context) (a : Addr) (lun : UInt32) (t : TaskPtr) (task : ScsiTask)
  (cb : Option Callback) (privateData : Nat) (ttt offset len : UInt32) (last : Bool)

@[simp] theorem asCommand_length :
    (pdu.asCommand c a lun t task cb privateData).outdata.length = pdu.outdata.length := by
  unfold Pdu.asCommand
  simp only
  split <;> simp [Pdu.setExpxferlen, Pdu.setLun, Pdu.setPduflags, Pdu.setByte,
    Pdu.setDataSegmentLength, Pdu.setField]

@[simp] theorem byte_asCommand :
    byte (pdu.asCommand c a lun t task cb privateData).outdata 0 = byte pdu.outdata 0 := by
  unfold Pdu.asCommand
  simp only
  split <;>
  · simp only [Pdu.setExpxferlen, Pdu.setLun, Pdu.setPduflags, Pdu.setByte,
      Pdu.setDataSegmentLength, Pdu.setField]
    simp [byte_scsiSetUint32, byte_scsiSetUint16, byte_set_ne]

@[simp] theorem asDataOut_length :
    (pdu.asDataOut cmd ttt offset len last).outdata.length = pdu.outdata.length := by
  simp [Pdu.asDataOut, Pdu.setPduflags, Pdu.setLun, Pdu.setTtt, Pdu.setDatasn,
    Pdu.setBufferoffset, Pdu.setDataSegmentLength, Pdu.setByte, Pdu.setField]

@[simp] theorem byte_asDataOut :
    byte (pdu.asDataOut cmd ttt offset len last).outdata 0 = byte pdu.outdata 0 := by
  simp [Pdu.asDataOut, Pdu.setPduflags, Pdu.setLun, Pdu.setTtt, Pdu.setDatasn,
    Pdu.setBufferoffset, Pdu.setDataSegmentLength, Pdu.setByte, Pdu.setField,
    byte_scsiSetUint32, byte_scsiSetUint16, byte_set_ne]

@[simp] theorem asDataOut_cmdsn :
    (pdu.asDataOut cmd ttt offset len last).cmdsn = cmd.cmdsn := rfl

end

/-! ## The PDU of a command -/

/-- The PDU of the command for a task, from the PDU that was allocated for it. -/
def Pdu.commandFor (pdu : Pdu) (c : Context) (a : Addr) (lun : UInt32) (t : TaskPtr)
    (task : ScsiTask) (cb : Option Callback) (privateData : Nat) : Pdu :=
  ((pdu.asCommand c a lun t task cb privateData).setCmdsn c.cmdsn).setCdb task.cdb

/-- A PDU is filled in as a command: it has the next CmdSN, which its task remembers. -/
theorem prepareCommand_spec {w w' : World} {a : Addr} {p : Pdu} {lun : UInt32} {t : TaskPtr}
    {cb : Option Callback} {privateData : Nat} (hp : w.pdus a = some p)
    (h : prepareCommand w a lun t cb privateData = .ok w') :
    w' = w.put (w.iscsi.setCmdsn (w.iscsi.cmdsn + 1))
        (Function.update w.pdus a
          (some (p.commandFor w.iscsi a lun t (w.tasks t) cb privateData)))
        (Function.update w.tasks t
          { w.tasks t with ptr := some a, lun, cmdsn := w.iscsi.cmdsn, itt := p.itt })
        (w.trace ++ [.submitted a t lun cb privateData]) := by
  unfold prepareCommand at h
  rw [World.deref_eq_ok.2 hp, Outcome.ok_bind] at h
  set q := p.asCommand w.iscsi a lun t (w.tasks t) cb privateData with hpdef
  have hitt : q.itt = p.itt := by
    rw [hpdef]
    unfold Pdu.asCommand
    simp only
    split <;> rfl
  have htask : q.scsiCbdata.task = some t := by
    rw [hpdef]
    unfold Pdu.asCommand
    simp only
    split <;> rfl
  have hset : iscsiPduSetCmdsn
      (((w.setPdu a q).modifyTask t fun task => { task with ptr := some a, lun }).modify fun c =>
        c.setCmdsn (w.iscsi.cmdsn + 1)) a w.iscsi.cmdsn =
      .ok (w.put (w.iscsi.setCmdsn (w.iscsi.cmdsn + 1))
        (Function.update w.pdus a (some (q.setCmdsn w.iscsi.cmdsn)))
        (Function.update w.tasks t
          { w.tasks t with ptr := some a, lun, cmdsn := w.iscsi.cmdsn, itt := p.itt })
        w.trace) := by
    unfold iscsiPduSetCmdsn
    have hd : (((w.setPdu a q).modifyTask t fun task => { task with ptr := some a, lun }).modify
        fun c => c.setCmdsn (w.iscsi.cmdsn + 1)).deref a = .ok q :=
      World.deref_eq_ok.2 (Function.update_self ..)
    rw [hd, Outcome.ok_bind, htask]
    simp [World.modifyTask, World.modify, World.setPdu, World.put, hitt]
  simp only [World.modifyTask_iscsi, World.setPdu_iscsi] at h
  rw [hset, Outcome.ok_bind] at h
  have hd : (w.put (w.iscsi.setCmdsn (w.iscsi.cmdsn + 1))
      (Function.update w.pdus a (some (q.setCmdsn w.iscsi.cmdsn)))
      (Function.update w.tasks t
        { w.tasks t with ptr := some a, lun, cmdsn := w.iscsi.cmdsn, itt := p.itt })
      w.trace).deref a = .ok (q.setCmdsn w.iscsi.cmdsn) :=
    World.deref_eq_ok.2 (Function.update_self ..)
  rw [hd, Outcome.ok_bind] at h
  obtain rfl := Except.ok.inj h
  simp [World.setPdu, World.put, World.log, Pdu.commandFor, hpdef]

section
variable (pdu : Pdu) (c : Context) (a : Addr) (lun : UInt32) (t : TaskPtr) (task : ScsiTask)
  (cb : Option Callback) (privateData : Nat)

@[simp] theorem commandFor_length :
    (pdu.commandFor c a lun t task cb privateData).outdata.length = pdu.outdata.length := by
  simp [Pdu.commandFor, Pdu.setCdb, Pdu.setCmdsn, Pdu.setField]

@[simp] theorem byte_commandFor :
    byte (pdu.commandFor c a lun t task cb privateData).outdata 0 = byte pdu.outdata 0 := by
  simp [Pdu.commandFor, Pdu.setCdb, byte_copyBytes]

@[simp] theorem commandFor_cmdsn :
    (pdu.commandFor c a lun t task cb privateData).cmdsn = c.cmdsn := rfl

/-- The header of a command carries its CmdSN. -/
theorem commandFor_field (h : 28 ≤ pdu.outdata.length) :
    scsiGetUint32 (pdu.commandFor c a lun t task cb privateData).outdata 24 = c.cmdsn := by
  unfold Pdu.commandFor Pdu.setCdb Pdu.setCmdsn Pdu.setField
  rw [scsiGetUint32_copyBytes (by omega), scsiGetUint32_set (by rw [asCommand_length]; omega)]

@[simp] theorem commandFor_expxferlen :
    (pdu.commandFor c a lun t task cb privateData).expxferlen = task.expxferlen := by
  unfold Pdu.commandFor Pdu.setCdb Pdu.setCmdsn Pdu.asCommand
  simp only
  split <;> rfl

@[simp] theorem commandFor_payloadLen :
    (pdu.commandFor c a lun t task cb privateData).payloadLen =
      (immediateDataLen c task).toNat := by
  unfold Pdu.commandFor Pdu.setCdb Pdu.setCmdsn Pdu.asCommand
  simp only
  split <;> rfl

end

end Libiscsi
