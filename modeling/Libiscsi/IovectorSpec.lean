import Libiscsi.Burst

/-!
# What is written from the vectors of a task

The cursor of an iovector counts the vectors that lie before the position of the last transfer,
and their bytes. While it is right (`CursorOk`) the vectors that `iovectorSelect` chooses hold the
bytes at the position asked for, and the cursor stays right. So `writePayload` sends the bytes of
the payload in order, each from its offset in the data of the task (`writePayload_sends`).
-/

namespace Libiscsi

/-! ## The bytes of vectors -/

section
variable (mem : Nat → UInt8)

/-- The number of bytes in vectors. -/
def iovecLength (iov : List ScsiIovec) : Nat := (iov.map ScsiIovec.iovLen).sum

@[simp] theorem iovecBytes_nil : iovecBytes mem [] = [] := rfl

@[simp] theorem iovecBytes_cons (x : ScsiIovec) (iov : List ScsiIovec) :
    iovecBytes mem (x :: iov) =
      ((List.range x.iovLen).map fun i => mem (x.iovBase + i)) ++ iovecBytes mem iov := rfl

@[simp] theorem iovecBytes_append (l l' : List ScsiIovec) :
    iovecBytes mem (l ++ l') = iovecBytes mem l ++ iovecBytes mem l' := List.flatMap_append

@[simp] theorem length_iovecBytes (iov : List ScsiIovec) :
    (iovecBytes mem iov).length = iovecLength iov := by
  induction iov with
  | nil => rfl
  | cons x iov ih => simp [ih, iovecLength]

/-- The last vector is cut so that as many bytes are left as were asked for. -/
theorem iovectorTail_bytes : ∀ {l sel : List ScsiIovec} {n : Nat}, iovectorTail l n = some sel →
    iovecBytes mem sel = (iovecBytes mem l).take n ∧ n ≤ iovecLength l
  | [], _, _, h => by cases h
  | x :: l, sel, n, h => by
    unfold iovectorTail at h
    split at h
    · rename_i hn
      obtain ⟨sel', hsel', rfl⟩ := Option.map_eq_some_iff.1 h
      obtain ⟨hbytes, hle⟩ := iovectorTail_bytes hsel'
      refine ⟨?_, ?_⟩
      · have hfirst : ((List.range x.iovLen).map fun i => mem (x.iovBase + i)).take n =
            (List.range x.iovLen).map fun i => mem (x.iovBase + i) :=
          List.take_of_length_le (by simp; omega)
        rw [iovecBytes_cons, iovecBytes_cons, hbytes, List.take_append, hfirst, List.length_map,
          List.length_range]
      · simp only [iovecLength, List.map_cons, List.sum_cons] at hle ⊢
        omega
    · rename_i hn
      obtain rfl := Option.some.inj h
      refine ⟨?_, ?_⟩
      · rw [iovecBytes_cons, iovecBytes_cons, iovecBytes_nil, List.append_nil,
          List.take_append_of_le_length (by simp; omega), ← List.map_take, List.take_range,
          Nat.min_eq_left (by omega)]
      · simp only [iovecLength, List.map_cons, List.sum_cons]
        omega

end

/-! ## The cursor -/

/-- The cursor counts the vectors before it and their bytes. -/
def ScsiIovector.CursorOk (v : ScsiIovector) : Prop :=
  ∀ iov, v.iov = some iov → v.offset = iovecLength (iov.take v.consumed)

theorem iovecLength_append (l l' : List ScsiIovec) :
    iovecLength (l ++ l') = iovecLength l + iovecLength l' := by
  simp [iovecLength]

/-- The loop that skips vectors moves the cursor behind the ones it skips. -/
theorem iovectorHead_spec : ∀ {l : List ScsiIovec} {v v' : ScsiIovector} {pos : Nat}
    {r : Option (List ScsiIovec × Nat)}, iovectorHead l v pos = (v', r) →
    ∃ pre rest, l = pre ++ rest ∧
      v' = { v with offset := v.offset + iovecLength pre, consumed := v.consumed + pre.length } ∧
      ∀ x, r = some x → x.1 = rest ∧ pos = iovecLength pre + x.2
  | [], v, v', pos, r, h => by
    obtain ⟨rfl, rfl⟩ := Prod.mk.inj h
    exact ⟨[], [], rfl, rfl, by simp⟩
  | x :: l, v, v', pos, r, h => by
    unfold iovectorHead at h
    split at h
    · rename_i hpos
      obtain ⟨pre, rest, rfl, rfl, hr⟩ := iovectorHead_spec h
      refine ⟨x :: pre, rest, rfl, ?_, fun y hy => ?_⟩
      · simp only [iovecLength, List.map_cons, List.sum_cons, List.length_cons]
        congr 1 <;> omega
      · obtain ⟨h₁, h₂⟩ := hr y hy
        refine ⟨h₁, ?_⟩
        simp only [iovecLength, List.map_cons, List.sum_cons] at h₂ ⊢
        omega
    · obtain ⟨rfl, rfl⟩ := Prod.mk.inj h
      refine ⟨[], x :: l, rfl, rfl, fun y hy => ?_⟩
      obtain rfl := Option.some.inj hy
      exact ⟨rfl, by simp [iovecLength]⟩

/-- A cursor that moved behind more vectors is right. -/
theorem ScsiIovector.CursorOk.moved {v : ScsiIovector} {iov pre rest : List ScsiIovec}
    (hc : v.CursorOk) (hiov : v.iov = some iov)
    (hsplit : iov.drop v.consumed = pre ++ rest) :
    ({ v with offset := v.offset + iovecLength pre, consumed := v.consumed + pre.length } :
      ScsiIovector).CursorOk := by
  intro iov' hiov'
  obtain rfl : iov = iov' := Option.some.inj (hiov.symm.trans hiov')
  have htake : iov.take (v.consumed + pre.length) = iov.take v.consumed ++ pre := by
    rw [List.take_add, hsplit, List.take_left]
  change _ = iovecLength (iov.take (v.consumed + pre.length))
  rw [htake, iovecLength_append, ← hc iov hiov]

/-- **The vectors chosen for a transfer hold the bytes at its position**, and the cursor stays
right. -/
theorem iovectorSelect_spec (mem : Nat → UInt8) {v v' : ScsiIovector} {iov : List ScsiIovec}
    {pos count : Nat} {r : Option (List ScsiIovec)} (hc : v.CursorOk) (hiov : v.iov = some iov)
    (hrange : pos + count < 2 ^ 32) (h : iovectorSelect v pos count = (v', r)) :
    v'.CursorOk ∧ v'.iov = some iov ∧
      ∀ sel, r = some sel → iovecBytes mem sel = ((iovecBytes mem iov).drop pos).take count ∧
        pos + count ≤ iovecLength iov := by
  unfold iovectorSelect at h
  rw [hiov] at h
  simp only at h
  split_ifs at h with hoff hcons
  · obtain ⟨rfl, rfl⟩ := Prod.mk.inj h
    exact ⟨hc, hiov, by simp⟩
  · obtain ⟨rfl, rfl⟩ := Prod.mk.inj h
    exact ⟨hc, hiov, by simp⟩
  rcases hhead : iovectorHead (iov.drop v.consumed) v (pos - v.offset) with ⟨v₁, r₁⟩
  obtain ⟨pre, rest, hsplit, hv₁, hr₁⟩ := iovectorHead_spec hhead
  have hc₁ : v₁.CursorOk := by
    rw [hv₁]
    exact hc.moved hiov hsplit
  have hiov₁ : v₁.iov = some iov := by rw [hv₁]; exact hiov
  rw [hhead] at h
  rcases r₁ with _ | ⟨rest', pos'⟩
  · obtain ⟨rfl, rfl⟩ := Prod.mk.inj h
    exact ⟨hc₁, hiov₁, by simp⟩
  obtain ⟨rfl, hpos⟩ := hr₁ _ rfl
  simp only at h hpos
  rcases htail : iovectorTail rest' ((pos' + count) % 2 ^ 32) with _ | _ | ⟨x, xs⟩
  · rw [htail] at h
    obtain ⟨rfl, rfl⟩ := Prod.mk.inj h
    exact ⟨hc₁, hiov₁, by simp⟩
  · rw [htail] at h
    obtain ⟨rfl, rfl⟩ := Prod.mk.inj h
    exact ⟨hc₁, hiov₁, by simp⟩
  rw [htail] at h
  simp only at h
  split_ifs at h with hneg
  · obtain ⟨rfl, rfl⟩ := Prod.mk.inj h
    exact ⟨hc₁, hiov₁, by simp⟩
  obtain ⟨rfl, rfl⟩ := Prod.mk.inj h
  refine ⟨hc₁, hiov₁, fun sel hsel => ?_⟩
  obtain rfl := Option.some.inj hsel
  obtain ⟨hbytes, hlen⟩ := iovectorTail_bytes mem htail
  rw [Nat.mod_eq_of_lt (by omega)] at hbytes hlen
  -- the vectors are those before the cursor, those that were skipped, and the rest
  have hall : iovecBytes mem iov =
      iovecBytes mem (iov.take v.consumed ++ pre) ++ iovecBytes mem rest' := by
    rw [← iovecBytes_append, List.append_assoc, ← hsplit, List.take_append_drop]
  have hbefore : iovecLength (iov.take v.consumed ++ pre) = v.offset + iovecLength pre := by
    rw [iovecLength_append, ← hc iov hiov]
  have htotal : iovecLength iov = v.offset + iovecLength pre + iovecLength rest' := by
    have := congrArg List.length hall
    simpa only [List.length_append, length_iovecBytes, hbefore] using this
  refine ⟨?_, by omega⟩
  have hcut : iovecBytes mem ({ iovBase := x.iovBase + pos', iovLen := x.iovLen - pos' } :: xs) =
      (iovecBytes mem (x :: xs)).drop pos' := by
    rw [iovecBytes_cons, iovecBytes_cons, List.drop_append_of_le_length (by simp; omega)]
    congr 1
    apply List.ext_getElem
    · simp
    · intro i h₁ h₂
      simp [Nat.add_assoc]
  rw [hcut, hbytes, hall, show pos = (iovecBytes mem (iov.take v.consumed ++ pre)).length + pos' by
      rw [length_iovecBytes, hbefore]; omega, List.drop_length_add_append, List.drop_take,
    Nat.add_sub_cancel_left]

/-! ## The payload of a PDU -/

/-- The vectors of a task are these, and its cursor is right. -/
structure World.Vectors (w : World) (t : TaskPtr) (iov : List ScsiIovec) : Prop where
  iov : (w.tasks t).iovectorOut.iov = some iov
  cursor : (w.tasks t).iovectorOut.CursorOk

section
variable {w w' : World} {a : Addr} {p : Pdu} {t : TaskPtr} {iov : List ScsiIovec}

/-- One turn of the loop over the payload: nothing is sent, or bytes that stand in the data of the
task where the PDU has got to. -/
theorem payloadTurn_sends {r : Option Int} (ht : p.scsiCbdata.task = some t)
    (hv : w.Vectors t iov) (hrange : p.payloadOffset + p.payloadLen < 2 ^ 32)
    (hle : p.payloadWritten ≤ p.payloadLen) (h : payloadTurn w a p = .ok (r, w')) :
    w'.Vectors t iov ∧ w'.mem = w.mem ∧
      (r ≠ none ∧ w'.trace = w.trace ∧ w'.pdus = w.pdus ∨
        ∃ n calculatedDataDigest, r = none ∧ n ≤ p.payloadLen - p.payloadWritten ∧
          w'.trace = w.trace ++ [.sent a (((iovecBytes w.mem iov).drop
            (p.payloadOffset + p.payloadWritten)).take n)] ∧
          w'.pdus = Function.update w.pdus a (some { p with
            payloadWritten := p.payloadWritten + n, calculatedDataDigest }) ∧
          calculatedDataDigest = if w.iscsi.dataDigest = .none then p.calculatedDataDigest
            else crc32cChain p.calculatedDataDigest (((iovecBytes w.mem iov).drop
              (p.payloadOffset + p.payloadWritten)).take n)) := by
  unfold payloadTurn at h
  rw [ht] at h
  simp only [hv.iov, Option.isNone_some, Bool.false_eq_true, if_false] at h
  unfold writevPayload at h
  rw [Nat.mod_eq_of_lt (by omega)] at h
  rcases hsel : iovectorSelect (w.tasks t).iovectorOut (p.payloadOffset + p.payloadWritten)
    (p.payloadLen - p.payloadWritten) with ⟨v, sel⟩
  obtain ⟨hc, hiov, hbytes⟩ := iovectorSelect_spec w.mem hv.cursor hv.iov (by omega) hsel
  simp only [hsel] at h
  set w₁ := w.modifyTask t fun task => { task with iovectorOut := v } with hw₁
  have hv₁ : w₁.Vectors t iov := by
    have : (w₁.tasks t).iovectorOut = v := by rw [hw₁, World.modifyTask_tasks, Function.update_self]
    exact ⟨this ▸ hiov, this ▸ hc⟩
  rcases sel with _ | sel
  · obtain ⟨rfl, rfl⟩ := Prod.mk.inj (Except.ok.inj h)
    exact ⟨hv₁, rfl, .inl ⟨by simp [SysResult.ret], rfl, rfl⟩⟩
  obtain ⟨hsent, _⟩ := hbytes sel rfl
  simp only [hsent, ← hw₁] at h
  rcases hsys : sysSend w₁ a (((iovecBytes w.mem iov).drop
    (p.payloadOffset + p.payloadWritten)).take (p.payloadLen - p.payloadWritten)) with ⟨s, w₂⟩
  obtain ⟨hw₂, hcount⟩ := sysSend_spec hsys
  simp only [hsys] at h
  have hv₂ : w₂.Vectors t iov := by
    rw [hw₂]
    exact ⟨hv₁.iov, hv₁.cursor⟩
  have hmem : w₂.mem = w.mem ∧ w₂.pdus = w.pdus ∧ w₂.trace = w.trace ++ s.events a
      (((iovecBytes w.mem iov).drop (p.payloadOffset + p.payloadWritten)).take
        (p.payloadLen - p.payloadWritten)) := by
    rw [hw₂]
    exact ⟨rfl, rfl, rfl⟩
  cases s with
  | again =>
    obtain ⟨rfl, rfl⟩ := Prod.mk.inj (Except.ok.inj h)
    exact ⟨hv₂, hmem.1, .inl ⟨by simp [SysResult.ret], by simpa [SysResult.events] using hmem.2.2,
      hmem.2.1⟩⟩
  | error =>
    obtain ⟨rfl, rfl⟩ := Prod.mk.inj (Except.ok.inj h)
    exact ⟨hv₂, hmem.1, .inl ⟨by simp [SysResult.ret], by simpa [SysResult.events] using hmem.2.2,
      hmem.2.1⟩⟩
  | count n =>
    obtain ⟨rfl, rfl⟩ := Prod.mk.inj (Except.ok.inj h)
    have hn := (hcount n rfl).1
    have hn' : n ≤ p.payloadLen - p.payloadWritten := hn.trans (List.length_take_le _ _)
    have hctx : w₂.iscsi = w.iscsi := by rw [hw₂]; rfl
    refine ⟨⟨hv₂.iov, hv₂.cursor⟩, hmem.1, .inr ⟨n, _, rfl, hn', ?_,
      congrArg (fun pdus => Function.update pdus a _) hmem.2.1, ?_⟩⟩
    · change w₂.trace = _
      rw [hmem.2.2, SysResult.events, List.take_take, Nat.min_eq_left hn']
    · rw [hctx, List.take_take, Nat.min_eq_left hn']

/-- **The payload of a PDU is sent from its offset in the data of its task**, in order and no
more than its length, however often the socket takes only a part; and when the loop goes on to
what follows the payload, all of it has been sent. -/
theorem writePayload_sends : ∀ {fuel : Nat} {w w' : World} {p : Pdu} {r : Option Int},
    w.pdus a = some p → p.scsiCbdata.task = some t → w.Vectors t iov →
    p.payloadOffset + p.payloadLen < 2 ^ 32 → p.payloadWritten ≤ p.payloadLen →
    writePayload fuel w a = .ok (r, w') →
    ∃ (chunks : List (List UInt8)) (n : Nat), w'.trace = w.trace ++ chunks.map (Event.sent a) ∧
      p.payloadWritten + n ≤ p.payloadLen ∧
      chunks.flatten = ((iovecBytes w.mem iov).drop
        (p.payloadOffset + p.payloadWritten)).take n ∧
      w'.Vectors t iov ∧ w'.mem = w.mem ∧ (r = none → p.payloadWritten + n = p.payloadLen) ∧
      ∃ q, w'.pdus a = some q ∧ q.payloadWritten = p.payloadWritten + n ∧ q.segment = p.segment
  | 0, _, _, _, _, _, _, _, _, _, h => by cases h
  | fuel + 1, w, w', p, r, hp, ht, hv, hrange, hle, h => by
    unfold writePayload at h
    rw [World.deref_eq_ok.2 hp, Outcome.ok_bind] at h
    split at h
    swap
    · obtain ⟨rfl, rfl⟩ := Prod.mk.inj (Except.ok.inj h)
      exact ⟨[], 0, by simp, hle, by simp, hv, rfl, fun _ => by omega, p, hp, by simp, rfl⟩
    obtain ⟨s, rfl, hturn⟩ | ⟨w₁, hturn, h⟩ := andThen_eq_ok h
    · obtain ⟨hv', hmem, ⟨_, htrace, hpdus⟩ | ⟨_, _, hr, _⟩⟩ :=
        payloadTurn_sends ht hv hrange hle hturn
      · exact ⟨[], 0, by simpa using htrace, hle, by simp, hv', hmem, (fun h => by cases h), p,
          (by rw [hpdus, hp]), by simp, rfl⟩
      · cases hr
    · obtain ⟨hv₁, hmem, ⟨hr, _⟩ | ⟨n, digest, _, hn, htrace, hpdus, _⟩⟩ :=
        payloadTurn_sends ht hv hrange hle hturn
      · exact absurd rfl hr
      have hp₁ : w₁.pdus a = some { p with
          payloadWritten := p.payloadWritten + n, calculatedDataDigest := digest } := by
        rw [hpdus, Function.update_self]
      obtain ⟨chunks, m, htrace', hm, hflat, hv', hmem', hdone, q, hq, hqw, hqs⟩ :=
        writePayload_sends hp₁ ht hv₁ hrange (by simp only; omega) h
      simp only at hm hflat hdone hqw
      have hall : r = none → p.payloadWritten + (n + m) = p.payloadLen := fun hr => by
        have := hdone hr
        omega
      refine ⟨((iovecBytes w.mem iov).drop (p.payloadOffset + p.payloadWritten)).take n :: chunks,
        n + m, ?_, by omega, ?_, hv', hmem'.trans hmem, hall, q, hq, by omega, hqs⟩
      · rw [htrace', htrace]
        simp
      rw [List.flatten_cons, hflat, hmem, List.take_add, List.drop_drop, Nat.add_assoc]

end

end Libiscsi
