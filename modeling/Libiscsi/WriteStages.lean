import Libiscsi.IovectorSpec

/-!
# What each stage sends

A stage of `iscsi_write_to_socket` hands one buffer to the socket, which takes none of it or a
part from its start (`sysSend_chunks`). So a stage leaves the world with the PDU stored and some
bytes of a buffer sent (`World.emitted`), and goes on to the next stage only when the buffer has
been sent to its end. The vectors of every task stay what they are, with right cursors, whichever
PDU is being sent (`KeepsVectors`).
-/

namespace Libiscsi

/-! ## Bytes sent of a PDU -/

/-- The bytes an event sends of the PDU at `a`. -/
def Event.sentOf (a : Addr) : Event → List UInt8
  | .sent b bytes => if b = a then bytes else []
  | _ => []

/-- The bytes sent of the PDU at `a`. -/
def sentOf (a : Addr) (trace : List Event) : List UInt8 := trace.flatMap (Event.sentOf a)

@[simp] theorem sentOf_append (a : Addr) (l l' : List Event) :
    sentOf a (l ++ l') = sentOf a l ++ sentOf a l' := List.flatMap_append

@[simp] theorem sentOf_taken (a b : Addr) (q : Pdu) : sentOf a [.taken b q] = [] := rfl

@[simp] theorem sentOf_free (a b : Addr) : sentOf a [.free b] = [] := rfl

/-- What is sent of the PDU itself. -/
@[simp] theorem sentOf_self (a : Addr) (chunks : List (List UInt8)) :
    sentOf a (chunks.map (Event.sent a)) = chunks.flatten := by
  induction chunks with
  | nil => rfl
  | cons c chunks ih =>
    rw [List.map_cons, List.flatten_cons, ← ih]
    simp [sentOf, Event.sentOf]

/-- What is sent of another PDU. -/
theorem sentOf_of_ne {a b : Addr} (h : b ≠ a) (chunks : List (List UInt8)) :
    sentOf a (chunks.map (Event.sent b)) = [] := by
  induction chunks with
  | nil => rfl
  | cons c chunks ih =>
    rw [List.map_cons, ← List.singleton_append, sentOf_append, ih]
    simp [sentOf, Event.sentOf, h]

/-- The PDU at `a` is stored, and bytes of it have been sent. -/
def World.emitted (w : World) (a : Addr) (q : Pdu) (chunks : List (List UInt8))
    (sends : List SendResult) : World :=
  { w.setPdu a q with sends, trace := w.trace ++ chunks.map (Event.sent a) }

section
variable (w : World) (a : Addr) (q : Pdu) (chunks : List (List UInt8)) (sends : List SendResult)

@[simp] theorem World.emitted_pdus :
    (w.emitted a q chunks sends).pdus = Function.update w.pdus a (some q) := rfl

@[simp] theorem World.emitted_tasks : (w.emitted a q chunks sends).tasks = w.tasks := rfl

@[simp] theorem World.emitted_iscsi : (w.emitted a q chunks sends).iscsi = w.iscsi := rfl

@[simp] theorem World.emitted_mem : (w.emitted a q chunks sends).mem = w.mem := rfl

@[simp] theorem World.emitted_sent :
    sentOf a (w.emitted a q chunks sends).trace = sentOf a w.trace ++ chunks.flatten := by
  simp [World.emitted]

end

/-- A PDU that is taken leaves the tasks, the memory and the digests of the session as they are. -/
theorem World.taken_frame (w : World) (a : Addr) (q : Pdu) :
    (w.taken a q).tasks = w.tasks ∧ (w.taken a q).mem = w.mem ∧
      (w.taken a q).iscsi.dataDigest = w.iscsi.dataDigest := by
  refine ⟨by simp [World.taken], by simp [World.taken], ?_⟩
  rw [World.taken, World.put_iscsi]
  simp only [Context.setOutqueueCurrent, Context.setWaitpdu, Context.setOutqueue]

/-- Nothing is stored and nothing has been sent. -/
theorem World.emitted_nil {w : World} {a : Addr} {p : Pdu} (hp : w.pdus a = some p) :
    w.emitted a p [] w.sends = w := by
  have hpdus : Function.update w.pdus a (some p) = w.pdus := Function.update_eq_self_iff.2 hp.symm
  unfold World.emitted World.setPdu
  rw [hpdus]
  simp

/-- A `send` takes nothing, or bytes from the start of the buffer. -/
theorem sysSend_chunks {w w' : World} {a : Addr} {bytes : List UInt8} {r : SysResult}
    (h : sysSend w a bytes = (r, w')) :
    ∃ chunks : List (List UInt8),
      w' = { w with sends := w'.sends, trace := w.trace ++ chunks.map (Event.sent a) } ∧
      chunks.flatten <+: bytes ∧
      ((∃ n, r = .count n ∧ chunks.flatten.length = n ∧ chunks.flatten = bytes.take n) ∨
        (r = .again ∨ r = .error) ∧ chunks = []) := by
  obtain ⟨hw, hn⟩ := sysSend_spec h
  cases r with
  | count n =>
    refine ⟨[bytes.take n], hw, by simpa using List.take_prefix n bytes, .inl ⟨n, rfl, ?_, ?_⟩⟩
    · simpa using (hn n rfl).1
    · simp
  | again => exact ⟨[], hw, List.nil_prefix, .inr ⟨.inl rfl, rfl⟩⟩
  | error => exact ⟨[], hw, List.nil_prefix, .inr ⟨.inr rfl, rfl⟩⟩

/-- A stage whose `send` took nothing returns from the function. -/
theorem stopped_of_send {w₁ w' : World} {s : SysResult} {r : Option Int}
    {k : Nat → World → Res (Option Int × World)} (hs : s = .again ∨ s = .error)
    (h : (match (s, w₁) with
      | (.count n, w) => k n w
      | (r, w) => .ok (r.ret, w)) = .ok (r, w')) : r ≠ none ∧ w' = w₁ := by
  rcases hs with rfl | rfl
  · obtain ⟨rfl, rfl⟩ := Prod.mk.inj (Except.ok.inj h)
    exact ⟨nofun, rfl⟩
  · obtain ⟨rfl, rfl⟩ := Prod.mk.inj (Except.ok.inj h)
    exact ⟨nofun, rfl⟩

/-! ## The stages -/

/-- The buffer of a PDU with the padding that is sent. -/
def Pdu.aligned (p : Pdu) : List UInt8 :=
  p.outdata ++ List.replicate (pad4 p.outdata.length - p.outdata.length) 0

section
variable {w w' : World} {a : Addr} {r : Option Int}

/-- Header and immediate data: bytes of the aligned buffer are sent. -/
theorem writeHeader_cases (h : writeHeader w a = .ok (r, w')) :
    ∃ (p : Pdu) (chunks : List (List UInt8)), w.pdus a = some p ∧
      w' = w.emitted a { p with
        outdata := p.aligned
        outdataWritten := p.outdataWritten + chunks.flatten.length } chunks w'.sends ∧
      chunks.flatten <+: p.aligned.drop p.outdataWritten ∧
      (r = none → p.outdataWritten + chunks.flatten.length = pad4 p.outdata.length) := by
  unfold writeHeader at h
  obtain ⟨p, hp, h⟩ := Outcome.bind_eq_ok.1 h
  rw [World.deref_eq_ok] at hp
  simp only at h
  refine ⟨p, ?_⟩
  split at h
  · rcases hs : sysSend (w.setPdu a { p with outdata := p.aligned }) a
      (p.aligned.drop p.outdataWritten) with ⟨s, w₁⟩
    obtain ⟨chunks, hw₁, hpre, ⟨n, rfl, hlen, _⟩ | ⟨hs', rfl⟩⟩ := sysSend_chunks hs
    · simp only [Pdu.aligned] at hs
      rw [hs] at h
      obtain ⟨rfl, rfl⟩ := Prod.mk.inj (Except.ok.inj h)
      refine ⟨chunks, hp, ?_, hpre, fun hr => ?_⟩
      · rw [hw₁, hlen]
        simp [World.emitted, World.setPdu, Pdu.aligned]
      · split_ifs at hr with hne
        rw [hlen]
        simpa using hne
    · simp only [Pdu.aligned] at hs
      rw [hs] at h
      obtain ⟨hr, rfl⟩ := stopped_of_send hs' h
      refine ⟨[], hp, ?_, List.nil_prefix, fun hnone => absurd hnone hr⟩
      rw [hw₁]
      simp [World.emitted, World.setPdu]
  · obtain ⟨rfl, rfl⟩ := Prod.mk.inj (Except.ok.inj h)
    refine ⟨[], hp, by simp [World.emitted, World.setPdu, Pdu.aligned], List.nil_prefix,
      fun hr => ?_⟩
    split_ifs at hr with hne
    simpa using hne

/-- The digest of the data in the buffer. -/
theorem digestOutdata_cases (h : digestOutdata w a = .ok w') :
    ∃ p, w.pdus a = some p ∧
      ((executeDataDigest w.iscsi p = true ∧ p.outdataDigestComputed = false ∧
          w' = w.setPdu a { p with
            calculatedDataDigest := crc32cChain p.calculatedDataDigest
              (p.outdata.drop (iscsiHeaderSize w.iscsi.headerDigest +
                (byte p.outdata 4).toNat * 4))
            outdataDigestComputed := true }) ∨
        ((executeDataDigest w.iscsi p = true → p.outdataDigestComputed = true) ∧ w' = w)) := by
  unfold digestOutdata at h
  obtain ⟨p, hp, h⟩ := Outcome.bind_eq_ok.1 h
  rw [World.deref_eq_ok] at hp
  refine ⟨p, hp, ?_⟩
  split at h
  · rename_i hexec
    obtain rfl := Except.ok.inj h
    exact .inl ⟨hexec.1, by simpa using hexec.2, rfl⟩
  · rename_i hexec
    obtain rfl := Except.ok.inj h
    refine .inr ⟨fun he => ?_, rfl⟩
    simpa [he] using hexec

/-- The digest of the payload with `bytes` after it. -/
def Pdu.digestWith (c : Context) (p : Pdu) (bytes : List UInt8) : UInt32 :=
  if c.dataDigest = .none then p.calculatedDataDigest
  else crc32cChain p.calculatedDataDigest bytes

/-- The padding after the payload: zeros are sent. -/
theorem writePadding_cases (h : writePadding w a = .ok (r, w')) :
    ∃ (p : Pdu) (chunks : List (List UInt8)), w.pdus a = some p ∧
      w' = w.emitted a { p with
        payloadWritten := p.payloadWritten + chunks.flatten.length
        calculatedDataDigest := p.digestWith w.iscsi chunks.flatten } chunks w'.sends ∧
      chunks.flatten <+: List.replicate (pad4 p.payloadLen - p.payloadWritten) 0 ∧
      (r = none → pad4 p.payloadLen ≤ p.payloadWritten + chunks.flatten.length) := by
  unfold writePadding at h
  obtain ⟨p, hp, h⟩ := Outcome.bind_eq_ok.1 h
  rw [World.deref_eq_ok] at hp
  simp only at h
  refine ⟨p, ?_⟩
  have hnil : p.digestWith w.iscsi [] = p.calculatedDataDigest := by simp [Pdu.digestWith]
  split at h
  · rcases hs : sysSend w a (List.replicate (pad4 p.payloadLen - p.payloadWritten) 0) with
      ⟨s, w₁⟩
    obtain ⟨chunks, hw₁, hpre, ⟨n, rfl, hlen, htake⟩ | ⟨hs', rfl⟩⟩ := sysSend_chunks hs
    · rw [hs] at h
      obtain ⟨rfl, rfl⟩ := Prod.mk.inj (Except.ok.inj h)
      refine ⟨chunks, hp, ?_, hpre, fun hr => ?_⟩
      · have hzero : chunks.flatten = List.replicate n 0 := by
          rw [htake, List.take_replicate]
          congr 1
          have hle := hpre.length_le
          rw [hlen, List.length_replicate] at hle
          omega
        rw [hw₁, hlen, hzero]
        simp [World.emitted, World.setPdu, Pdu.digestWith]
      · rw [hlen]
        split_ifs at hr with hlt
        omega
    · rw [hs] at h
      obtain ⟨hr, rfl⟩ := stopped_of_send hs' h
      refine ⟨[], hp, ?_, List.nil_prefix, fun hnone => absurd hnone hr⟩
      rw [hw₁]
      simp [World.emitted, World.setPdu, hnil, hp]
  · obtain ⟨rfl, rfl⟩ := Prod.mk.inj (Except.ok.inj h)
    refine ⟨[], hp, ?_, List.nil_prefix, fun _ => by simp; omega⟩
    simp only [List.flatten_nil, hnil]
    exact (World.emitted_nil hp).symm

/-- A data digest follows the data. -/
def Pdu.endsWithDigest (c : Context) (p : Pdu) : Prop :=
  executeDataDigest c p = true ∨ (c.dataDigest ≠ .none ∧ p.payloadWritten ≠ 0)

/-- The data digest: bytes of it are sent, if there is one. -/
theorem writeDigest_cases (h : writeDigest w a = .ok (r, w')) :
    ∃ (p : Pdu) (chunks : List (List UInt8)), w.pdus a = some p ∧
      w' = w.emitted a { p with
        payloadWritten := p.payloadWritten + chunks.flatten.length } chunks w'.sends ∧
      (p.endsWithDigest w.iscsi ∧
          chunks.flatten <+: (digestBytes (crc32cChainDone p.calculatedDataDigest)).drop
            (iscsiDigestSize - (pad4 p.payloadLen + iscsiDigestSize - p.payloadWritten)) ∧
          (r = none →
            p.payloadWritten + chunks.flatten.length = pad4 p.payloadLen + iscsiDigestSize) ∨
        ¬p.endsWithDigest w.iscsi ∧ chunks = [] ∧
          (r = none → p.payloadWritten = pad4 p.payloadLen)) := by
  unfold writeDigest at h
  obtain ⟨p, hp, h⟩ := Outcome.bind_eq_ok.1 h
  rw [World.deref_eq_ok] at hp
  simp only at h
  refine ⟨p, ?_⟩
  have hself : w = w.emitted a { p with payloadWritten := p.payloadWritten } [] w.sends :=
    (World.emitted_nil hp).symm
  split at h
  · rename_i hends
    split at h
    · rcases hs : sysSend w a ((digestBytes (crc32cChainDone p.calculatedDataDigest)).drop
        (iscsiDigestSize - (pad4 p.payloadLen + iscsiDigestSize - p.payloadWritten))) with
        ⟨s, w₁⟩
      obtain ⟨chunks, hw₁, hpre, ⟨n, rfl, hlen, _⟩ | ⟨hs', rfl⟩⟩ := sysSend_chunks hs
      · rw [hs] at h
        obtain ⟨rfl, rfl⟩ := Prod.mk.inj (Except.ok.inj h)
        refine ⟨chunks, hp, ?_, .inl ⟨hends, hpre, fun hr => ?_⟩⟩
        · rw [hw₁, hlen]
          simp [World.emitted, World.setPdu]
        · rw [hlen]
          split_ifs at hr with hne
          simpa using hne
      · rw [hs] at h
        obtain ⟨hr, rfl⟩ := stopped_of_send hs' h
        refine ⟨[], hp, ?_, .inl ⟨hends, List.nil_prefix, fun hnone => absurd hnone hr⟩⟩
        rw [hw₁]
        simp [World.emitted, World.setPdu, hp]
    · obtain ⟨rfl, rfl⟩ := Prod.mk.inj (Except.ok.inj h)
      refine ⟨[], hp, hself, .inl ⟨hends, List.nil_prefix, fun hr => ?_⟩⟩
      split_ifs at hr with hne
      simpa using hne
  · rename_i hends
    obtain ⟨rfl, rfl⟩ := Prod.mk.inj (Except.ok.inj h)
    refine ⟨[], hp, hself, .inr ⟨hends, rfl, fun hr => ?_⟩⟩
    split_ifs at hr with hne
    simpa using hne

end

/-! ## The vectors of the tasks -/

/-- A selection keeps the vectors and leaves a right cursor right. -/
theorem iovectorSelect_cursor {v v' : ScsiIovector} {pos count : Nat}
    {sel : Option (List ScsiIovec)} {iov : List ScsiIovec} (hc : v.CursorOk)
    (hiov : v.iov = some iov) (h : iovectorSelect v pos count = (v', sel)) :
    v'.CursorOk ∧ v'.iov = some iov := by
  unfold iovectorSelect at h
  rw [hiov] at h
  simp only at h
  split_ifs at h
  · obtain ⟨rfl, rfl⟩ := Prod.mk.inj h
    exact ⟨hc, hiov⟩
  · obtain ⟨rfl, rfl⟩ := Prod.mk.inj h
    exact ⟨hc, hiov⟩
  rcases hhead : iovectorHead (iov.drop v.consumed) v (pos - v.offset) with ⟨v₁, r₁⟩
  obtain ⟨pre, rest, hsplit, hv₁, -⟩ := iovectorHead_spec hhead
  have hv' : v' = v₁ := by
    rw [hhead] at h
    rcases r₁ with _ | ⟨rest', pos'⟩
    · exact (Prod.mk.inj h).1.symm
    simp only at h
    split at h
    · exact (Prod.mk.inj h).1.symm
    · exact (Prod.mk.inj h).1.symm
    · split_ifs at h
      · exact (Prod.mk.inj h).1.symm
      · exact (Prod.mk.inj h).1.symm
  rw [hv', hv₁]
  exact ⟨hc.moved hiov hsplit, hiov⟩

/-- The vectors of every task are what they were, with right cursors. -/
def KeepsVectors (w w' : World) : Prop :=
  ∀ t iov, w.Vectors t iov → w'.Vectors t iov

namespace KeepsVectors

variable {w w' w'' : World} {a : Addr} {r : Option Int}

theorem of_tasks (h : w'.tasks = w.tasks) : KeepsVectors w w' := fun t iov hv =>
  ⟨by rw [h]; exact hv.iov, by rw [h]; exact hv.cursor⟩

protected theorem trans (h : KeepsVectors w w') (h' : KeepsVectors w' w'') :
    KeepsVectors w w'' := fun t iov hv => h' t iov (h t iov hv)

/-- The cursor of one task moves. -/
theorem modifyTask (t : TaskPtr) (pos count : Nat) {v : ScsiIovector}
    {sel : Option (List ScsiIovec)}
    (h : iovectorSelect (w.tasks t).iovectorOut pos count = (v, sel)) :
    KeepsVectors w (w.modifyTask t fun task => { task with iovectorOut := v }) := by
  intro t' iov hv
  by_cases ht : t' = t
  · subst ht
    obtain ⟨hc, hiov⟩ := iovectorSelect_cursor hv.cursor hv.iov h
    exact ⟨by simpa using hiov, by simpa using hc⟩
  · exact ⟨by simpa [ht] using hv.iov, by simpa [ht] using hv.cursor⟩

theorem payloadTurn {p : Pdu} (h : payloadTurn w a p = .ok (r, w')) : KeepsVectors w w' := by
  unfold Libiscsi.payloadTurn at h
  rcases ht : p.scsiCbdata.task with _ | t
  · rw [ht] at h
    cases h
  rw [ht] at h
  simp only at h
  split at h
  · obtain ⟨_, rfl⟩ := Prod.mk.inj (Except.ok.inj h)
    exact .of_tasks rfl
  unfold writevPayload at h
  rcases hsel : iovectorSelect (w.tasks t).iovectorOut
    ((p.payloadOffset + p.payloadWritten) % 2 ^ 32) (p.payloadLen - p.payloadWritten) with
    ⟨v, _ | sel⟩
  · simp only [hsel] at h
    obtain ⟨_, rfl⟩ := Prod.mk.inj (Except.ok.inj h)
    exact .modifyTask t _ _ hsel
  simp only [hsel] at h
  have hmod := KeepsVectors.modifyTask (w := w) t _ _ hsel
  rcases hs : Libiscsi.sysSend (w.modifyTask t fun task => { task with iovectorOut := v }) a
    (iovecBytes w.mem sel) with ⟨s, w₁⟩
  have hkeep : KeepsVectors w w₁ :=
    hmod.trans (.of_tasks (by rw [(sysSend_spec hs).1]))
  rw [hs] at h
  cases s with
  | count n =>
    obtain ⟨_, rfl⟩ := Prod.mk.inj (Except.ok.inj h)
    exact hkeep.trans (.of_tasks rfl)
  | again =>
    obtain ⟨_, rfl⟩ := Prod.mk.inj (Except.ok.inj h)
    exact hkeep
  | error =>
    obtain ⟨_, rfl⟩ := Prod.mk.inj (Except.ok.inj h)
    exact hkeep

theorem writePayload : ∀ {fuel : Nat} {w : World},
    writePayload fuel w a = .ok (r, w') → KeepsVectors w w'
  | 0, _, h => by cases h
  | fuel + 1, w, h => by
    unfold Libiscsi.writePayload at h
    obtain ⟨p, _, h⟩ := Outcome.bind_eq_ok.1 h
    split at h
    · obtain ⟨_, _, ht⟩ | ⟨w₁, ht, h⟩ := andThen_eq_ok h
      · exact payloadTurn ht
      · exact (payloadTurn ht).trans (writePayload h)
    · obtain ⟨_, rfl⟩ := Prod.mk.inj (Except.ok.inj h)
      exact .of_tasks rfl

/-- A PDU that was sent and is done. -/
theorem writeDone (h : writeDone w a = .ok w') : KeepsVectors w w' := by
  refine .of_tasks ?_
  unfold Libiscsi.writeDone releaseSent at h
  obtain ⟨p, _, h⟩ := Outcome.bind_eq_ok.1 h
  obtain ⟨w₁, hrel, h⟩ := Outcome.bind_eq_ok.1 h
  obtain rfl := Except.ok.inj h
  split at hrel
  · obtain ⟨_, rfl⟩ := iscsiFreePdu_eq_ok.1 hrel
    split <;> rfl
  · obtain rfl := Except.ok.inj hrel
    split <;> rfl

theorem writeHeader (h : writeHeader w a = .ok (r, w')) : KeepsVectors w w' := by
  obtain ⟨p, chunks, _, hw, _⟩ := writeHeader_cases h
  exact .of_tasks (by rw [hw]; rfl)

theorem digestOutdata (h : digestOutdata w a = .ok w') : KeepsVectors w w' := by
  obtain ⟨p, _, ⟨_, _, rfl⟩ | ⟨_, rfl⟩⟩ := digestOutdata_cases h
  · exact .of_tasks rfl
  · exact .of_tasks rfl

theorem writePadding (h : writePadding w a = .ok (r, w')) : KeepsVectors w w' := by
  obtain ⟨p, chunks, _, hw, _⟩ := writePadding_cases h
  exact .of_tasks (by rw [hw]; rfl)

theorem writeDigest (h : writeDigest w a = .ok (r, w')) : KeepsVectors w w' := by
  obtain ⟨p, chunks, _, hw, _⟩ := writeDigest_cases h
  exact .of_tasks (by rw [hw]; rfl)

/-- **A turn for any PDU keeps the vectors of every task.** -/
theorem writeCurrent (h : writeCurrent w a = .ok (r, w')) : KeepsVectors w w' := by
  unfold Libiscsi.writeCurrent at h
  obtain ⟨_, _, h₁⟩ | ⟨w₁, h₁, h⟩ := andThen_eq_ok h
  · exact writeHeader h₁
  obtain ⟨w₂, h₂, h⟩ := Outcome.bind_eq_ok.1 h
  have hk₂ := (writeHeader h₁).trans (digestOutdata h₂)
  obtain ⟨p, _, h⟩ := Outcome.bind_eq_ok.1 h
  obtain ⟨_, _, h₃⟩ | ⟨w₃, h₃, h⟩ := andThen_eq_ok h
  · exact hk₂.trans (writePayload h₃)
  have hk₃ := hk₂.trans (writePayload h₃)
  obtain ⟨_, _, h₄⟩ | ⟨w₄, h₄, h⟩ := andThen_eq_ok h
  · exact hk₃.trans (writePadding h₄)
  have hk₄ := hk₃.trans (writePadding h₄)
  obtain ⟨_, _, h₅⟩ | ⟨w₅, h₅, h⟩ := andThen_eq_ok h
  · exact hk₄.trans (writeDigest h₅)
  obtain ⟨w₆, h₆, h⟩ := Outcome.bind_eq_ok.1 h
  obtain ⟨rfl, rfl⟩ := Prod.mk.inj (Except.ok.inj h)
  exact (hk₄.trans (writeDigest h₅)).trans (writeDone h₆)

end KeepsVectors

end Libiscsi
