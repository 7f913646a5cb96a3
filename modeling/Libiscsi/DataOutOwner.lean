import Libiscsi.CmdsnCorrect

/-!
# The commands of the queued DATA-OUTs

A DATA-OUT is queued by itself, and finds its data through the task of its command. `OwnerInv` says
that its command, the PDU of a SCSI command with its task tag and its task, is in one of the queues.
The steps that take PDUs out of the queues (`Thins`) keep it if no command is lost that has a
DATA-OUT left.
-/

namespace Libiscsi

/-- What a DATA-OUT has in common with its command: the task tag and the task. -/
def Pdu.tag (p : Pdu) : UInt32 × Option TaskPtr := (p.itt, p.scsiCbdata.task)

/-- `q` is `p` in all that matters for its place in the queues. -/
structure Pdu.Alike (p q : Pdu) : Prop where
  opcode : q.opcode = p.opcode
  tag : q.tag = p.tag
  flags : q.flags = p.flags
  scsiTimeout : q.scsiTimeout = p.scsiTimeout
  isWriteCdb : q.isWriteCdb = p.isWriteCdb
  size : p.outdata.length ≤ q.outdata.length

namespace Pdu.Alike

variable {p q r : Pdu}

protected theorem refl (p : Pdu) : p.Alike p := ⟨rfl, rfl, rfl, rfl, rfl, le_refl _⟩

protected theorem trans (h : p.Alike q) (h' : q.Alike r) : p.Alike r :=
  ⟨h'.opcode.trans h.opcode, h'.tag.trans h.tag, h'.flags.trans h.flags,
    h'.scsiTimeout.trans h.scsiTimeout, h'.isWriteCdb.trans h.isWriteCdb, h.size.trans h'.size⟩

theorem expired (h : p.Alike q) (t : Nat) : q.expired t = p.expired t := by
  simp [Pdu.expired, h.scsiTimeout]

theorem hasFlag (h : p.Alike q) (flag : UInt32) : q.hasFlag flag = p.hasFlag flag := by
  simp [Pdu.hasFlag, h.flags]

theorem isWriteRequest (h : p.Alike q) : q.isWriteRequest = p.isWriteRequest := by
  simp [Pdu.isWriteRequest, h.opcode, h.isWriteCdb]

end Pdu.Alike

theorem Pdu.Renumbered.alike {p q : Pdu} (h : p.Renumbered q) : p.Alike q where
  opcode := h.opcode
  tag := by simp [Pdu.tag, h.itt, h.scsiCbdata]
  flags := h.flags
  scsiTimeout := h.scsiTimeout
  isWriteCdb := h.isWriteCdb
  size := by
    rcases h with rfl | h
    · exact le_refl _
    · rw [h]
      exact le_of_eq (length_scsiSetUint32 ..).symm

/-- Padding does not change a byte: there is none behind the end of the buffer. -/
theorem byte_append_zeros (l : List UInt8) (n j : Nat) :
    byte (l ++ List.replicate n 0) j = byte l j := by
  simp only [byte, List.getD_eq_getElem?_getD, List.getElem?_append]
  split
  · rfl
  · next h =>
    rw [List.getElem?_eq_none (Nat.le_of_not_lt h), List.getElem?_replicate]
    split <;> rfl

theorem Pdu.SentAs.alike {p q : Pdu} (h : p.SentAs q) : p.Alike q := by
  obtain ⟨n, h⟩ := h
  have hbyte : ∀ j, byte q.outdata j = byte p.outdata j := fun j => by
    rw [h]
    exact byte_append_zeros ..
  refine ⟨?_, ?_, ?_, ?_, ?_, ?_⟩
  · simp [Pdu.opcode, hbyte]
  · rw [h]; rfl
  · rw [h]
  · rw [h]
  · simp [Pdu.isWriteCdb, hbyte]
  · rw [h]
    simp

theorem Pdu.TakenAs.alike {c : Context} {p q : Pdu} (h : p.TakenAs c q) : p.Alike q := by
  have hcdb : byte q.outdata 32 = byte p.outdata 32 := by
    have hstamp : byte (p.stamped c).outdata 32 = byte p.outdata 32 :=
      byte_scsiSetUint32 (.inr (by omega))
    rw [← hstamp]
    unfold TakenAs digested at h
    split at h
    · obtain rfl := Option.some.inj h
      rfl
    · unfold iscsiPduUpdateHeaderdigest at h
      split at h
      · cases h
      · next hsize =>
        obtain rfl := Option.some.inj h
        simp only [iscsiRawHeaderSize, iscsiDigestSize] at hsize
        simp only [byte, List.getD_eq_getElem?_getD, List.append_assoc]
        rw [List.getElem?_append_left (by simp [iscsiRawHeaderSize]; omega),
          List.getElem?_take_of_lt (by simp [iscsiRawHeaderSize])]
  refine ⟨?_, ?_, h.flags, h.scsiTimeout, ?_, le_of_eq h.length.symm⟩
  · simp [Pdu.opcode, h.spec.2.2 0]
  · rw [h.spec.1]; rfl
  · simp [Pdu.isWriteCdb, hcdb]

namespace World

/-- A DATA-OUT with the tag is queued or being sent. -/
def DataOut (w : World) (k : UInt32 × Option TaskPtr) : Prop :=
  ∃ d ∈ w.iscsi.outqueueCurrent.toList ++ w.iscsi.outqueue, ∃ p, w.pdus d = some p ∧
    p.opcode = iscsiPduDataOut ∧ p.tag = k

/-- The PDU at the address is a SCSI command with the tag. -/
def CommandAt (w : World) (b : Addr) (k : UInt32 × Option TaskPtr) : Prop :=
  ∃ q, w.pdus b = some q ∧ q.opcode = iscsiPduScsiRequest ∧ q.tag = k

/-- A SCSI command with the tag is in one of the queues. -/
def Command (w : World) (k : UInt32 × Option TaskPtr) : Prop :=
  ∃ b ∈ w.iscsi.outqueue ++ w.iscsi.waitpdu, w.CommandAt b k

/-- A SCSI command with the tag has expired, and no test of the scan keeps it in its queue. -/
def Risky (w : World) (k : UInt32 × Option TaskPtr) : Prop :=
  ∃ b q, w.pdus b = some q ∧ q.opcode = iscsiPduScsiRequest ∧ q.tag = k ∧
    q.expired w.now = true ∧
    (b ∈ w.iscsi.outqueue ∨ b ∈ w.iscsi.waitpdu ∧ q.isWriteRequest = false)

/-- No command that expired and may be taken out has a DATA-OUT. -/
def NoRisk (w : World) : Prop := ∀ k, w.DataOut k → ¬w.Risky k

end World

/-- The queues are well formed, and the command of every DATA-OUT is in one of them. -/
structure OwnerInv (w : World) : Prop where
  olds : w.olds = []
  nodup : (w.iscsi.outqueue ++ w.iscsi.waitpdu).Nodup
  below : ∀ a ∈ w.iscsi.addrs, a < w.brk
  current : ∀ a, w.iscsi.outqueueCurrent = some a → a ∉ w.iscsi.outqueue
  live : ∀ a ∈ w.iscsi.addrs, (w.pdus a).isSome
  size : ∀ a ∈ w.iscsi.outqueue, ∀ p, w.pdus a = some p →
    iscsiHeaderSize w.iscsi.headerDigest ≤ p.outdata.length
  waits : ∀ a ∈ w.iscsi.outqueue ++ w.iscsi.waitpdu, ∀ p, w.pdus a = some p →
    p.opcode = iscsiPduScsiRequest → p.hasFlag iscsiPduDeleteWhenSent = false
  sent : ∀ a, w.iscsi.outqueueCurrent = some a → ∀ p, w.pdus a = some p →
    p.hasFlag iscsiPduDeleteWhenSent = true → a ∉ w.iscsi.waitpdu
  owned : ∀ k, w.DataOut k → w.Command k

/-! ## Taking PDUs out of the queues -/

/-- The queues of `w'` are those of `w` without some of the PDUs. -/
structure Thins (w w' : World) : Prop where
  olds : w'.olds = w.olds
  headerDigest : w'.iscsi.headerDigest = w.iscsi.headerDigest
  brk : w.brk ≤ w'.brk
  now : w'.now = w.now
  outqueue : w'.iscsi.outqueue.Sublist w.iscsi.outqueue
  waitpdu : w'.iscsi.waitpdu.Sublist w.iscsi.waitpdu
  current : w'.iscsi.outqueueCurrent = w.iscsi.outqueueCurrent ∨ w'.iscsi.outqueueCurrent = none
  live : ∀ a ∈ w'.iscsi.addrs, (w.pdus a).isSome → (w'.pdus a).isSome
  alike : ∀ a ∈ w'.iscsi.addrs, ∀ p q, w.pdus a = some p → w'.pdus a = some q → p.Alike q

namespace Thins

variable {w w' w'' : World} {a : Addr} {k : UInt32 × Option TaskPtr}

protected theorem refl (w : World) : Thins w w where
  olds := rfl
  headerDigest := rfl
  brk := le_refl _
  now := rfl
  outqueue := .refl _
  waitpdu := .refl _
  current := .inl rfl
  live _ _ h := h
  alike a _ p q hp hq := by
    obtain rfl := Option.some.inj (hp.symm.trans hq)
    exact .refl _

theorem mem_addrs (h : Thins w w') (ha : a ∈ w'.iscsi.addrs) : a ∈ w.iscsi.addrs := by
  simp only [Context.addrs, List.mem_append, Option.mem_toList] at ha ⊢
  rcases ha with (ha | ha) | ha
  · exact .inl (.inl (h.outqueue.subset ha))
  · exact .inl (.inr (h.waitpdu.subset ha))
  · rcases h.current with hc | hc
    · exact .inr (hc ▸ ha)
    · rw [hc] at ha
      cases ha

protected theorem trans (h : Thins w w') (h' : Thins w' w'') : Thins w w'' where
  olds := h'.olds.trans h.olds
  headerDigest := h'.headerDigest.trans h.headerDigest
  brk := h.brk.trans h'.brk
  now := h'.now.trans h.now
  outqueue := h'.outqueue.trans h.outqueue
  waitpdu := h'.waitpdu.trans h.waitpdu
  current := by
    rcases h'.current with hc | hc
    · rw [hc]
      exact h.current
    · exact .inr hc
  live a ha hp := h'.live a ha (h.live a (h'.mem_addrs ha) hp)
  alike a ha p r hp hr := by
    have ha' := h'.mem_addrs ha
    obtain ⟨q, hq⟩ := Option.isSome_iff_exists.1 (h.live a ha' (by simp [hp]))
    exact (h.alike a ha' p q hp hq).trans (h'.alike a ha q r hq hr)

/-- No PDU in the queues is changed. -/
theorem of_eq (holds : w'.olds = w.olds) (hd : w'.iscsi.headerDigest = w.iscsi.headerDigest)
    (hbrk : w.brk ≤ w'.brk) (hnow : w'.now = w.now)
    (hout : w'.iscsi.outqueue.Sublist w.iscsi.outqueue)
    (hwait : w'.iscsi.waitpdu.Sublist w.iscsi.waitpdu)
    (hcur : w'.iscsi.outqueueCurrent = w.iscsi.outqueueCurrent ∨
      w'.iscsi.outqueueCurrent = none)
    (hp : ∀ a ∈ w'.iscsi.addrs, w'.pdus a = w.pdus a) : Thins w w' where
  olds := holds
  headerDigest := hd
  brk := hbrk
  now := hnow
  outqueue := hout
  waitpdu := hwait
  current := hcur
  live a ha h := by rwa [hp a ha]
  alike a ha p q h h' := by
    rw [hp a ha, h] at h'
    obtain rfl := Option.some.inj h'
    exact .refl _

/-- A DATA-OUT that is left was there before. -/
theorem dataOut (h : Thins w w') (hlive : ∀ a ∈ w.iscsi.addrs, (w.pdus a).isSome)
    (hk : w'.DataOut k) : w.DataOut k := by
  obtain ⟨d, hd, q, hq, hop, htag⟩ := hk
  have hmem : d ∈ w'.iscsi.addrs := by
    simp only [Context.addrs, List.mem_append] at hd ⊢
    exact hd.elim .inr fun hd => .inl (.inl hd)
  have hmem' := h.mem_addrs hmem
  obtain ⟨p, hp⟩ := Option.isSome_iff_exists.1 (hlive d hmem')
  have halike := h.alike d hmem p q hp hq
  refine ⟨d, ?_, p, hp, halike.opcode.symm.trans hop, halike.tag.symm.trans htag⟩
  simp only [List.mem_append, Option.mem_toList] at hd ⊢
  rcases hd with hd | hd
  · rcases h.current with hc | hc
    · exact .inl (hc ▸ hd)
    · rw [hc] at hd
      cases hd
  · exact .inr (h.outqueue.subset hd)

/-- A command at risk was at risk before. -/
theorem risky (h : Thins w w') (hlive : ∀ a ∈ w.iscsi.addrs, (w.pdus a).isSome)
    (hk : w'.Risky k) : w.Risky k := by
  obtain ⟨b, q, hq, hop, htag, hexp, hb⟩ := hk
  have hmem : b ∈ w'.iscsi.addrs := by
    simp only [Context.addrs, List.mem_append]
    exact .inl (hb.imp id And.left)
  obtain ⟨p, hp⟩ := Option.isSome_iff_exists.1 (hlive b (h.mem_addrs hmem))
  have halike := h.alike b hmem p q hp hq
  refine ⟨b, p, hp, halike.opcode.symm.trans hop, halike.tag.symm.trans htag, ?_, ?_⟩
  · rw [← halike.expired, ← h.now, hexp]
  · rcases hb with hb | ⟨hb, hwrite⟩
    · exact .inl (h.outqueue.subset hb)
    · exact .inr ⟨h.waitpdu.subset hb, halike.isWriteRequest.symm.trans hwrite⟩

theorem noRisk (h : Thins w w') (hlive : ∀ a ∈ w.iscsi.addrs, (w.pdus a).isSome)
    (hr : w.NoRisk) : w'.NoRisk := fun k hk hrisk =>
  hr k (h.dataOut hlive hk) (h.risky hlive hrisk)

/-- A command that is left is the command it was. -/
theorem commandAt (h : Thins w w') (ha : a ∈ w'.iscsi.outqueue ++ w'.iscsi.waitpdu)
    (hk : w.CommandAt a k) : w'.CommandAt a k := by
  obtain ⟨p, hp, hop, htag⟩ := hk
  have hmem : a ∈ w'.iscsi.addrs := List.mem_append_left _ ha
  obtain ⟨q, hq⟩ := Option.isSome_iff_exists.1 (h.live a hmem (by simp [hp]))
  have halike := h.alike a hmem p q hp hq
  exact ⟨q, hq, halike.opcode.trans hop, halike.tag.trans htag⟩

end Thins

/-- **Taking PDUs out of the queues keeps the invariant** if no command is taken out that has a
DATA-OUT left. -/
theorem OwnerInv.thin {w w' : World} (hi : OwnerInv w) (h : Thins w w')
    (hlost : ∀ b k, b ∈ w.iscsi.outqueue ++ w.iscsi.waitpdu → w.CommandAt b k →
      w'.DataOut k → b ∈ w'.iscsi.outqueue ++ w'.iscsi.waitpdu) : OwnerInv w' where
  olds := h.olds.trans hi.olds
  nodup := hi.nodup.sublist (h.outqueue.append h.waitpdu)
  below a ha := (hi.below a (h.mem_addrs ha)).trans_le h.brk
  current a hc hmem := by
    rcases h.current with hc' | hc'
    · exact hi.current a (hc'.symm.trans hc) (h.outqueue.subset hmem)
    · rw [hc'] at hc
      cases hc
  live a ha := h.live a ha (hi.live a (h.mem_addrs ha))
  size a ha q hq := by
    have hmem : a ∈ w'.iscsi.addrs := List.mem_append_left _ (List.mem_append_left _ ha)
    obtain ⟨p, hp⟩ := Option.isSome_iff_exists.1 (hi.live a (h.mem_addrs hmem))
    rw [h.headerDigest]
    exact (hi.size a (h.outqueue.subset ha) p hp).trans (h.alike a hmem p q hp hq).size
  waits a ha q hq hop := by
    have hmem : a ∈ w'.iscsi.addrs := List.mem_append_left _ ha
    obtain ⟨p, hp⟩ := Option.isSome_iff_exists.1 (hi.live a (h.mem_addrs hmem))
    have halike := h.alike a hmem p q hp hq
    rw [halike.hasFlag]
    exact hi.waits a ((h.outqueue.append h.waitpdu).subset ha) p hp (halike.opcode.symm.trans hop)
  sent a hc q hq hflag hmem := by
    have hc' : w.iscsi.outqueueCurrent = some a := by
      rcases h.current with hcur | hcur
      · rw [← hcur, hc]
      · rw [hcur] at hc
        cases hc
    have haddr : a ∈ w'.iscsi.addrs := List.mem_append_left _ (List.mem_append_right _ hmem)
    obtain ⟨p, hp⟩ := Option.isSome_iff_exists.1 (hi.live a (h.mem_addrs haddr))
    rw [(h.alike a haddr p q hp hq).hasFlag] at hflag
    exact hi.sent a hc' p hp hflag (h.waitpdu.subset hmem)
  owned k hk := by
    obtain ⟨b, hb, hcmd⟩ := hi.owned k (h.dataOut hi.live hk)
    have hb' := hlost b k hb hcmd hk
    exact ⟨b, hb', h.commandAt hb' hcmd⟩

/-! ## Completing -/

section
variable {w w' : World} {a : Addr} {status : Status}

/-- What leaves the queues and their PDUs as they are, but for a PDU in none of them. -/
structure Keeps (w w' : World) : Prop extends Thins w w' where
  sameOutqueue : w'.iscsi.outqueue = w.iscsi.outqueue
  sameWaitpdu : w'.iscsi.waitpdu = w.iscsi.waitpdu

protected theorem Keeps.refl (w : World) : Keeps w w := ⟨.refl w, rfl, rfl⟩

protected theorem Keeps.trans {w'' : World} (h : Keeps w w') (h' : Keeps w' w'') : Keeps w w'' :=
  ⟨h.toThins.trans h'.toThins, h'.sameOutqueue.trans h.sameOutqueue,
    h'.sameWaitpdu.trans h.sameWaitpdu⟩

theorem OwnerInv.keeps (hi : OwnerInv w) (h : Keeps w w') : OwnerInv w' :=
  hi.thin h.toThins fun b k hb _ _ => by rwa [h.sameOutqueue, h.sameWaitpdu]

theorem keeps_called (w : World) (a : Addr) (p : Pdu) (status : Status) :
    Keeps w (w.called a p status) := by
  refine ⟨.of_eq rfl (callbackContext_headerDigest p _) (le_refl _) rfl ?_ ?_ (.inl ?_)
    fun _ _ => rfl, ?_, ?_⟩
  · simp [World.called]
  · simp [World.called]
  · simp [World.called]
  · simp [World.called]
  · simp [World.called]

theorem keeps_release (ha : a ∉ w.iscsi.outqueue ++ w.iscsi.waitpdu) : Keeps w (w.release a) := by
  refine ⟨.of_eq rfl rfl (le_refl _) rfl (.refl _) (.refl _) ?_ fun b hb => ?_, rfl, rfl⟩
  · by_cases hc : w.iscsi.outqueueCurrent = some a
    · exact .inr (if_pos hc)
    · exact .inl (if_neg hc)
  · refine Function.update_of_ne ?_ ..
    rintro rfl
    rcases List.mem_append.1 hb with hb | hb
    · exact ha hb
    · rw [Option.mem_toList] at hb
      change (if w.iscsi.outqueueCurrent = some b then none else w.iscsi.outqueueCurrent) =
        some b at hb
      split at hb
      · cases hb
      · next hne => exact hne hb

theorem keeps_completePdu (ha : a ∉ w.iscsi.outqueue ++ w.iscsi.waitpdu)
    (h : completePdu w a status = .ok w') : Keeps w w' := by
  unfold completePdu at h
  obtain ⟨w₁, h₁, h₂⟩ := Outcome.bind_eq_ok.1 h
  obtain ⟨p, _, rfl⟩ := invokeCallback_called h₁
  obtain ⟨_, rfl⟩ := iscsiFreePdu_eq_ok.1 h₂
  have hk := keeps_called w a p status
  refine hk.trans (keeps_release ?_)
  rwa [hk.sameOutqueue, hk.sameWaitpdu]

theorem keeps_completeTmp {tmp : List Addr}
    (ha : ∀ a ∈ tmp, a ∉ w.iscsi.outqueue ++ w.iscsi.waitpdu)
    (h : completeTmp w tmp status = .ok w') : Keeps w w' := by
  cases tmp with
  | nil =>
    obtain rfl := Except.ok.inj h
    exact .refl w
  | cons a tmp => exact keeps_completePdu (ha a (List.mem_cons_self ..)) h

/-- PDUs are taken off `waitpdu`. -/
theorem thins_setWaitpdu {l : List Addr} (h : l.Sublist w.iscsi.waitpdu) :
    Thins w (w.modify (·.setWaitpdu l)) :=
  .of_eq rfl rfl (le_refl _) rfl (.refl _) h (.inl rfl) fun _ _ => rfl

/-- **A PDU of `waitpdu` that is no command with a DATA-OUT left is unlinked and completed.** -/
theorem OwnerInv.complete (hi : OwnerInv w) (ha : a ∈ w.iscsi.waitpdu)
    (hgood : ∀ k, w.CommandAt a k → ¬w.DataOut k)
    (h : completePdu (w.modify (·.setWaitpdu (w.iscsi.waitpdu.erase a))) a status = .ok w') :
    OwnerInv w' := by
  have hthin := thins_setWaitpdu (w := w) (List.erase_sublist (a := a) (l := w.iscsi.waitpdu))
  have hnd := List.nodup_append.1 hi.nodup
  have hgone : a ∉ w.iscsi.outqueue ++ w.iscsi.waitpdu.erase a := by
    rw [List.mem_append, not_or]
    exact ⟨fun hm => hnd.2.2 a hm a ha rfl, hnd.2.1.not_mem_erase⟩
  refine (hi.thin hthin fun b k hb hcmd hk => ?_).keeps (keeps_completePdu hgone h)
  have hne : b ≠ a := by
    rintro rfl
    exact hgood k hcmd (hthin.dataOut hi.live hk)
  rw [List.mem_append] at hb ⊢
  exact hb.imp id fun hb => (List.mem_erase_of_ne hne).2 hb

end

/-! ## The scans -/

section
variable {w w' : World}

/-- A scan takes what it selects off `outqueue`. -/
theorem UnlinkSpec.thins {sel : World → Pdu → Bool}
    (h : UnlinkSpec sel [] w.iscsi.outqueue 0 w w') :
    Thins w w' ∧ w'.iscsi.outqueue = w.iscsi.outqueue.filter (fun a => !w.selects sel a) ∧
      w'.iscsi.waitpdu = w.iscsi.waitpdu ∧
      w'.iscsi.outqueueCurrent = w.iscsi.outqueueCurrent := by
  have hout : w'.iscsi.outqueue = w.iscsi.outqueue.filter (fun a => !w.selects sel a) := by
    rw [h.frame]
    rfl
  have hwait : w'.iscsi.waitpdu = w.iscsi.waitpdu := by
    rw [h.frame]
    rfl
  have hcur : w'.iscsi.outqueueCurrent = w.iscsi.outqueueCurrent := by
    rw [h.frame]
    rfl
  refine ⟨⟨?_, ?_, ?_, ?_, ?_, ?_, .inl hcur, fun a _ ha => ?_, fun a _ p q hp hq => ?_⟩, hout,
    hwait, hcur⟩
  · rw [h.frame]
    rfl
  · rw [h.frame]
    rfl
  · rw [h.frame]
    exact le_refl _
  · rw [h.frame]
    rfl
  · rw [hout]
    exact List.filter_sublist
  · rw [hwait]
  · rwa [h.heap.isSome_iff]
  · obtain ⟨q', hq', hren⟩ := h.heap.get hp
    obtain rfl := Option.some.inj (hq'.symm.trans hq)
    exact hren.alike

theorem OwnerInv.live_outqueue (hi : OwnerInv w) :
    ∀ a ∈ w.iscsi.outqueue, (w.pdus a).isSome := fun a ha =>
  hi.live a (List.mem_append_left _ (List.mem_append_left _ ha))

/-- The PDUs a scan took out, and those that are left. -/
theorem unlinked_notMem {sel : Addr → Bool} {l m : List Addr} (h : (l ++ m).Nodup) {a : Addr}
    (ha : a ∈ l.filter sel) : a ∉ l.filter (fun b => !sel b) ++ m := by
  rw [List.mem_filter] at ha
  rw [List.mem_append, List.mem_filter, not_or]
  refine ⟨fun hc => ?_, fun hc => ?_⟩
  · simp [ha.2] at hc
  · exact (List.nodup_append.1 h).2.2 a ha.1 a hc rfl

/-- **`iscsi_timeout_scan` keeps the invariant** if no command that expired has a DATA-OUT. -/
theorem OwnerInv.timeoutScan (hi : OwnerInv w) (hr : w.NoRisk)
    (h : iscsiTimeoutScan w = .ok w') : OwnerInv w' ∧ Thins w w' ∧
      ∀ b ∈ w.iscsi.outqueue ++ w.iscsi.waitpdu,
        (∀ p, w.pdus b = some p → p.expired w.now = false) →
        b ∈ w'.iscsi.outqueue ++ w'.iscsi.waitpdu := by
  unfold iscsiTimeoutScan at h
  obtain ⟨⟨tmp, w₁⟩, h₁, h⟩ := Outcome.bind_eq_ok.1 h
  obtain ⟨w₂, h₂, h⟩ := Outcome.bind_eq_ok.1 h
  obtain ⟨⟨tmp', w₃⟩, h₃, h₄⟩ := Outcome.bind_eq_ok.1 h
  obtain ⟨w₁', h₁', hspec⟩ := unlinkOutqueue_spec (timedOut_stable w.now) (i := []) (j := [])
    (n := 0) (w := w) rfl (List.nodup_append.1 hi.nodup).1 hi.live_outqueue
  obtain ⟨rfl, rfl⟩ := Prod.mk.inj (Except.ok.inj (h₁'.symm.trans h₁))
  obtain ⟨hthin₁, hout₁, hwait₁, hcur₁⟩ := hspec.thins
  -- what is selected has expired
  have hsel : ∀ b ∈ w.iscsi.outqueue, b ∉ w₁'.iscsi.outqueue →
      ∃ p, w.pdus b = some p ∧ p.expired w.now = true := by
    intro b hb hgone
    obtain ⟨p, hp⟩ := Option.isSome_iff_exists.1 (hi.live_outqueue b hb)
    rw [hout₁, List.mem_filter, not_and] at hgone
    have hs := hgone hb
    simp only [Bool.not_eq_true', Bool.not_eq_false, World.selects, hp, timedOut,
      Bool.and_eq_true] at hs
    exact ⟨p, hp, hs.1⟩
  have hi₁ : OwnerInv w₁' := by
    refine hi.thin hthin₁ fun b k hb hcmd hk => ?_
    rw [List.mem_append, hwait₁] at *
    refine hb.elim (fun hb => ?_) .inr
    by_contra hgone
    obtain ⟨p, hp, hexp⟩ := hsel b hb fun hc => hgone (.inl hc)
    obtain ⟨q, hq, hop, htag⟩ := hcmd
    obtain rfl := Option.some.inj (hp.symm.trans hq)
    exact hr k (hthin₁.dataOut hi.live hk) ⟨b, p, hp, hop, htag, hexp, .inl hb⟩
  have hkeep₂ : Keeps w₁' w₂ := by
    refine keeps_completeTmp (fun a ha => ?_) h₂
    rw [hout₁, hwait₁]
    exact unlinked_notMem hi.nodup (by simpa using ha)
  have hi₂ := hi₁.keeps hkeep₂
  have hthin₂ := hthin₁.trans hkeep₂.toThins
  have hr₂ := hthin₂.noRisk hi.live hr
  -- the scan of waitpdu
  have hnd₂ := List.nodup_append.1 hi₂.nodup
  have hlive₂ : ∀ a ∈ w₂.iscsi.waitpdu, (w₂.pdus a).isSome := fun a ha =>
    hi₂.live a (List.mem_append_left _ (List.mem_append_right _ ha))
  have hlive₂' : ∀ a ∈ w₂.iscsi.outqueueCurrent.toList ++ w₂.iscsi.outqueue,
      (w₂.pdus a).isSome := fun a ha => by
    refine hi₂.live a ?_
    simp only [Context.addrs, List.mem_append] at ha ⊢
    exact ha.elim .inr fun ha => .inl (.inl ha)
  rw [← hthin₂.now] at h₃
  have hwaits := timeoutWaitpdu_eq (i := []) (j := []) rfl hnd₂.2.1 hlive₂ hlive₂'
    (timeoutWaitpdu_deadlock h₃)
  obtain ⟨rfl, rfl⟩ := Prod.mk.inj (Except.ok.inj (hwaits.symm.trans h₃))
  simp only [List.nil_append] at h₄
  set left := w₂.iscsi.waitpdu.filter fun a => !w₂.waitDue w₂.iscsi.outqueue a with hleft
  have hthin₃ := thins_setWaitpdu (w := w₂) (l := left) List.filter_sublist
  have hdue : ∀ b ∈ w₂.iscsi.waitpdu, b ∉ left → ∃ p, w₂.pdus b = some p ∧
      p.expired w₂.now = true ∧
        (p.isWriteRequest = true → w₂.taskBusy w₂.iscsi.outqueue p = false) := by
    intro b hb hgone
    obtain ⟨p, hp⟩ := Option.isSome_iff_exists.1 (hlive₂ b hb)
    rw [hleft, List.mem_filter, not_and] at hgone
    have hs : w₂.waitDue w₂.iscsi.outqueue b = true := by simpa using hgone hb
    simp only [World.waitDue, hp, Bool.and_eq_true, Bool.not_eq_true', Bool.and_eq_false_imp] at hs
    exact ⟨p, hp, hs.1, hs.2⟩
  have hi₃ : OwnerInv (w₂.modify (·.setWaitpdu left)) := by
    refine hi₂.thin hthin₃ fun b k hb hcmd hk => ?_
    rw [List.mem_append] at *
    refine hb.elim .inl fun hb => ?_
    by_contra hgone
    obtain ⟨p, hp, hexp, hbusy⟩ := hdue b hb fun hc => hgone (.inr hc)
    obtain ⟨q, hq, hop, htag⟩ := hcmd
    obtain rfl := Option.some.inj (hp.symm.trans hq)
    have hk₂ := hthin₃.dataOut hi₂.live hk
    refine hr₂ k hk₂ ⟨b, p, hp, hop, htag, hexp, .inr ⟨hb, ?_⟩⟩
    rw [Bool.eq_false_iff]
    intro hwrite
    -- the DATA-OUT has the task of the command
    obtain ⟨d, hd, r, hr', _, hrtag⟩ := hk₂
    have hfree := hbusy hwrite
    simp only [World.taskBusy, List.any_eq_false] at hfree
    have hd' := hfree d hd
    simp only [hr', decide_eq_true_eq] at hd'
    exact hd' (congrArg Prod.snd (hrtag.trans htag.symm))
  have hkeep₄ : Keeps (w₂.modify (·.setWaitpdu left)) w' := by
    refine keeps_completeTmp (fun a ha hmem => ?_) h₄
    rw [List.mem_filter] at ha
    rcases List.mem_append.1 hmem with hm | hm
    · exact hnd₂.2.2 a hm a ha.1 rfl
    · change a ∈ left at hm
      rw [hleft, List.mem_filter] at hm
      simp [ha.2] at hm
  refine ⟨hi₃.keeps hkeep₄, (hthin₂.trans hthin₃).trans hkeep₄.toThins, fun b hb hexp => ?_⟩
  rw [hkeep₄.sameOutqueue, hkeep₄.sameWaitpdu]
  show b ∈ w₂.iscsi.outqueue ++ left
  rw [hkeep₂.sameOutqueue, List.mem_append]
  rcases List.mem_append.1 hb with hb | hb
  · by_contra hgone
    rw [not_or] at hgone
    obtain ⟨p, hp, hexp'⟩ := hsel b hb hgone.1
    simp [hexp p hp] at hexp'
  · right
    by_contra hgone
    have hb₂ : b ∈ w₂.iscsi.waitpdu := by rwa [hkeep₂.sameWaitpdu, hwait₁]
    obtain ⟨q, hq, hexp', _⟩ := hdue b hb₂ hgone
    obtain ⟨p, hp⟩ := Option.isSome_iff_exists.1
      (hi.live b (List.mem_append_left _ (List.mem_append_right _ hb)))
    have halike := hthin₂.alike b (List.mem_append_left _ (List.mem_append_right _ hb₂)) p q hp hq
    rw [halike.expired, hthin₂.now, hexp p hp] at hexp'
    cases hexp'

end

end Libiscsi
