import Libiscsi.DataIn
import Libiscsi.IovectorSpec

/-!
# Reading the data segment of a Data-In

However the socket cuts a data segment, it ends up whole: in the buffer of the `iscsi_in_pdu`
(`readData_buffer`), or behind the data that are already in the vectors of the task, where the
position of the transfer says (`readData_vectors`).
-/

namespace Libiscsi

/-! ## Storing through vectors -/

/-- Lists of addresses that hold the same bytes in every memory are equal. -/
theorem addrs_ext {l l' : List Nat} (h : ∀ mem : Nat → UInt8, l.map mem = l'.map mem) : l = l' := by
  have hlen : l.length = l'.length := by simpa using congrArg List.length (h fun _ => 0)
  apply List.ext_getElem hlen
  intro i hi hi'
  have hat := congrArg (fun m => m[i]?) (h fun x => if x = l[i] then 1 else 0)
  simp only [List.getElem?_map, List.getElem?_eq_getElem hi, List.getElem?_eq_getElem hi',
    Option.map_some, if_true, Option.some.injEq] at hat
  by_contra hne
  rw [if_neg (fun h => hne h.symm)] at hat
  cases hat

/-- Bytes are not stored at other addresses. -/
theorem storeAt_of_notMem : ∀ {addrs : List Nat} {bytes : List UInt8} {mem : Nat → UInt8}
    {x : Nat}, x ∉ addrs → storeAt mem addrs bytes x = mem x
  | [], _, _, _, _ => rfl
  | _ :: _, [], _, _, _ => rfl
  | y :: addrs, b :: bytes, mem, x, h => by
    rw [List.mem_cons, not_or] at h
    rw [storeAt, storeAt_of_notMem h.2, Function.update_of_ne h.1]

theorem map_storeAt_of_disjoint {addrs l : List Nat} {bytes : List UInt8} {mem : Nat → UInt8}
    (h : ∀ x ∈ l, x ∉ addrs) : l.map (storeAt mem addrs bytes) = l.map mem :=
  List.map_congr_left fun x hx => storeAt_of_notMem (h x hx)

/-- Bytes that were stored at different addresses are read back. -/
theorem map_storeAt : ∀ (mem : Nat → UInt8) {addrs : List Nat} {bytes : List UInt8},
    addrs.Nodup → bytes.length ≤ addrs.length →
    (addrs.map (storeAt mem addrs bytes)).take bytes.length = bytes
  | _, _, [], _, _ => rfl
  | _, [], _ :: _, _, h => by simp at h
  | mem, y :: addrs, b :: bytes, hnd, h => by
    obtain ⟨hy, hnd⟩ := List.nodup_cons.1 hnd
    have ih := map_storeAt (Function.update mem y b) hnd (Nat.le_of_succ_le_succ h)
    rw [List.map_cons, List.length_cons, List.take_succ_cons]
    simp only [storeAt]
    rw [storeAt_of_notMem hy, Function.update_self, ih]

/-- Bytes that are stored from a position on extend what stands before it. -/
theorem iovecBytes_storeAt {iov sel : List ScsiIovec} (mem : Nat → UInt8) (bytes : List UInt8)
    {pos count : Nat} (hnd : (iovecAddrs iov).Nodup)
    (hsel : iovecAddrs sel = ((iovecAddrs iov).drop pos).take count)
    (hlen : bytes.length ≤ count) (hfit : pos + count ≤ iovecLength iov) :
    (iovecBytes (storeAt mem (iovecAddrs sel) bytes) iov).take (pos + bytes.length) =
      (iovecBytes mem iov).take pos ++ bytes := by
  rw [iovecBytes_eq_map, iovecBytes_eq_map, hsel]
  set addrs := iovecAddrs iov with haddrs
  have hlength : addrs.length = iovecLength iov := length_iovecAddrs iov
  have hsplit : addrs =
      addrs.take pos ++ ((addrs.drop pos).take count ++ addrs.drop (pos + count)) := by
    rw [← List.drop_drop, List.take_append_drop, List.take_append_drop]
  have hmid : ((addrs.drop pos).take count).length = count := by
    rw [List.length_take, List.length_drop]
    omega
  have hmidnd : ((addrs.drop pos).take count).Nodup :=
    (hnd.sublist (List.drop_sublist _ _)).sublist (List.take_sublist _ _)
  have hdisj : ∀ x ∈ addrs.take pos, x ∉ (addrs.drop pos).take count := fun x hx hx' =>
    List.disjoint_take_drop hnd le_rfl hx ((List.take_sublist _ _).subset hx')
  have hpre : (addrs.take pos).length = pos := by
    rw [List.length_take]
    omega
  have hstored := map_storeAt mem hmidnd (by rw [hmid]; exact hlen)
  have hleft : ((addrs.map (storeAt mem ((addrs.drop pos).take count) bytes)).take
      (pos + bytes.length)) =
        (addrs.take pos).map (storeAt mem ((addrs.drop pos).take count) bytes) ++
        (((addrs.drop pos).take count).map
          (storeAt mem ((addrs.drop pos).take count) bytes)).take bytes.length := by
    rw [List.take_add, ← List.map_take, ← List.map_drop, ← List.map_take, ← List.map_take,
      List.take_take, Nat.min_eq_left hlen]
  rw [hleft, hstored, map_storeAt_of_disjoint hdisj, List.map_take]

/-! ## A transfer within the vectors -/

/-- A position within the vectors is found. -/
theorem iovectorHead_finds : ∀ (l : List ScsiIovec) (v : ScsiIovector) (pos : Nat),
    pos < iovecLength l → ∃ v' y ys pos', iovectorHead l v pos = (v', some (y :: ys, pos')) ∧
      pos' < y.iovLen
  | [], _, _, h => by simp [iovecLength] at h
  | x :: l, v, pos, h => by
    simp only [iovecLength, List.map_cons, List.sum_cons] at h
    rw [iovectorHead]
    split
    · exact iovectorHead_finds _ _ _ (by simp only [iovecLength]; omega)
    · exact ⟨_, _, _, _, rfl, by omega⟩

/-- A length within the vectors is found. -/
theorem iovectorTail_finds : ∀ (y : ScsiIovec) (ys : List ScsiIovec) (n : Nat),
    n ≤ iovecLength (y :: ys) → ∃ x xs, iovectorTail (y :: ys) n = some (x :: xs) ∧
      x.iovLen = min n y.iovLen
  | y, ys, n, h => by
    simp only [iovecLength, List.map_cons, List.sum_cons] at h
    rw [iovectorTail]
    split
    · rename_i hgt
      rcases ys with _ | ⟨z, zs⟩
      · simp at h
        omega
      · obtain ⟨x, xs, hx, _⟩ := iovectorTail_finds z zs (n - y.iovLen)
          (by simp only [iovecLength, List.map_cons, List.sum_cons] at h ⊢; omega)
        exact ⟨y, x :: xs, by rw [hx]; rfl, by omega⟩
    · exact ⟨_, [], rfl, by simp only; omega⟩

/-- **A transfer within the vectors, behind the last one, is not refused.** -/
theorem iovectorSelect_finds {v : ScsiIovector} {iov : List ScsiIovec} (pos count : Nat)
    (hc : v.CursorOk) (hiov : v.iov = some iov) (hpos : v.offset ≤ pos) (hcount : 0 < count)
    (hfit : pos + count ≤ iovecLength iov) (hsize : iovecLength iov < 2 ^ 32) :
    ∃ v' sel, iovectorSelect v pos count = (v', some sel) ∧ v'.offset ≤ pos := by
  have hoff := hc iov hiov
  have htotal : iovecLength iov = v.offset + iovecLength (iov.drop v.consumed) := by
    rw [hoff, ← iovecLength_append, List.take_append_drop]
  have hconsumed : ¬iov.length ≤ v.consumed := fun hle => by
    rw [List.drop_eq_nil_of_le hle] at htotal
    simp only [iovecLength, List.map_nil, List.sum_nil] at htotal hfit
    omega
  obtain ⟨v₁, y, ys, pos', hhead, hlt⟩ :=
    iovectorHead_finds (iov.drop v.consumed) v (pos - v.offset) (by omega)
  obtain ⟨pre, rest, hsplit, hv₁, hr⟩ := iovectorHead_spec hhead
  obtain ⟨hrest, hp⟩ := hr _ rfl
  simp only at hrest hp
  have hlen : iovecLength (iov.drop v.consumed) = iovecLength pre + iovecLength (y :: ys) := by
    rw [hsplit, iovecLength_append, hrest]
  obtain ⟨x, xs, htail, hx⟩ := iovectorTail_finds y ys (pos' + count) (by omega)
  refine ⟨v₁, { iovBase := x.iovBase + pos', iovLen := x.iovLen - pos' } :: xs, ?_, ?_⟩
  · unfold iovectorSelect
    rw [hiov]
    simp only
    rw [if_neg (by omega), if_neg hconsumed, hhead]
    simp only
    rw [Nat.mod_eq_of_lt (by omega), htail]
    simp only
    rw [if_neg (by omega)]
  · rw [hv₁]
    simp only
    omega

/-! ## Finding the PDU -/

/-- The search for a tag reads the tags of the PDUs only. -/
theorem findItt_congr {w w' : World} (itt : UInt32) : ∀ (l : List Addr),
    (∀ b, (w'.pdus b).map Pdu.itt = (w.pdus b).map Pdu.itt) → findItt w' itt l = findItt w itt l
  | [], _ => rfl
  | a :: l, h => by
    have ih := findItt_congr itt l h
    have ha := h a
    rw [findItt, findItt]
    unfold World.deref
    rcases hp : w.pdus a with _ | p <;> rcases hp' : w'.pdus a with _ | p' <;>
      rw [hp, hp'] at ha
    · rfl
    · simp at ha
    · simp at ha
    · simp only [Option.map_some, Option.some.injEq] at ha
      simp only [Outcome.ok_bind, ha, ih]

/-! ## The two ways to read -/

/-- **A segment ends up in the buffer**, when no task has vectors for it. -/
theorem readData_buffer {w : World} {hdr : List UInt8} (hallocs : w.allocs = [])
    (hnone : ∀ q : InPdu, q.hdr = hdr → iscsiGetScsiTaskIovectorIn w q = .ok none) :
    ∀ (fuel : Nat) (q : InPdu) (stream : List UInt8) (cuts : List Nat), q.hdr = hdr →
      q.dataPos + stream.length = (iscsiGetPduDataSize hdr + iscsiGetPduPaddingSize hdr) →
      stream.length < fuel →
      ∃ q', readData fuel w q stream cuts = .ok (some (w, q')) ∧ q'.hdr = hdr ∧
        q'.dataPos = (iscsiGetPduDataSize hdr + iscsiGetPduPaddingSize hdr) ∧
        q'.data.getD [] = q.data.getD [] ++ stream
  | 0, _, _, _, _, _, h => by simp at h
  | fuel + 1, q, stream, cuts, hq, hsize, hfuel => by
    rw [readData]
    simp only [hq]
    have hmalloc : (if q.data.isNone then w.malloc else (true, w)) = (true, w) := by
      rw [World.malloc, hallocs]
      split <;> rfl
    by_cases hlt : q.dataPos < (iscsiGetPduDataSize hdr + iscsiGetPduPaddingSize hdr)
    · rw [if_pos hlt, readOnce, hnone q hq, Outcome.ok_bind]
      simp only [hq, hmalloc, Bool.not_true, Bool.false_eq_true, if_false, Outcome.ok_bind]
      set bytes := stream.take (min (cuts.headD (iscsiGetPduDataSize hdr +
        iscsiGetPduPaddingSize hdr) + 1) (iscsiGetPduDataSize hdr +
          iscsiGetPduPaddingSize hdr - q.dataPos)) with hbytes
      have hlen : bytes.length ≤ stream.length := by
        rw [hbytes, List.length_take]
        omega
      have hpos : 0 < bytes.length := by
        rw [hbytes, List.length_take]
        omega
      have hblen : bytes.length = min (cuts.headD (iscsiGetPduDataSize hdr +
          iscsiGetPduPaddingSize hdr) + 1) (iscsiGetPduDataSize hdr +
            iscsiGetPduPaddingSize hdr - q.dataPos) := by
        rw [hbytes, List.length_take]
        omega
      have htake : bytes = stream.take bytes.length := by rw [hblen]
      have hsplit : bytes ++ stream.drop bytes.length = stream := by
        calc bytes ++ stream.drop bytes.length
            = stream.take bytes.length ++ stream.drop bytes.length := by rw [← htake]
          _ = stream := List.take_append_drop _ _
      obtain ⟨q', hread, hhdr, hdone, hdata⟩ := readData_buffer hallocs hnone fuel
        { q with data := some (q.data.getD [] ++ bytes), dataPos := q.dataPos + bytes.length }
        (stream.drop bytes.length) cuts.tail hq
        (by simp only [List.length_drop]; omega) (by rw [List.length_drop]; omega)
      refine ⟨q', by simpa only [hq] using hread, hhdr, hdone, ?_⟩
      rw [hdata]
      simp only [Option.getD_some]
      rw [List.append_assoc, hsplit]
    · rw [if_neg hlt]
      have hnil : stream = [] := List.length_eq_zero_iff.1 (by omega)
      exact ⟨q, rfl, hq, by omega, by rw [hnil, List.append_nil]⟩

/-- The world with the vectors of a task at a cursor, and with what was read through them. -/
def World.withVectors (w : World) (t : TaskPtr) (mem : Nat → UInt8) (v : ScsiIovector) : World :=
  { w with mem, tasks := Function.update w.tasks t { w.tasks t with iovectorIn := v } }

/-- **A segment ends up in the vectors**, behind the data that are in them. -/
theorem readData_vectors {w : World} {t : TaskPtr} {iov : List ScsiIovec} {hdr : List UInt8}
    {offset : Nat} (hnd : (iovecAddrs iov).Nodup) (hsize : iovecLength iov < 2 ^ 32)
    (hfind : ∀ (q : InPdu) (mem : Nat → UInt8) (v : ScsiIovector), q.hdr = hdr →
      v.iov = some iov → iscsiGetScsiTaskIovectorIn (w.withVectors t mem v) q = .ok (some t))
    (hoffset : (scsiGetUint32 hdr 40).toNat = offset)
    (hfit : offset + iscsiGetPduDataSize hdr ≤ iovecLength iov) :
    ∀ (fuel : Nat) (mem : Nat → UInt8) (v : ScsiIovector) (q : InPdu)
      (stream data : List UInt8) (cuts : List Nat), q.hdr = hdr →
      q.dataPos + stream.length = (iscsiGetPduDataSize hdr + iscsiGetPduPaddingSize hdr) →
      stream.length < fuel → v.CursorOk → v.iov = some iov →
      v.offset ≤ offset + min q.dataPos (iscsiGetPduDataSize hdr) →
      (iovecBytes mem iov).take (offset + min q.dataPos (iscsiGetPduDataSize hdr)) = data →
      ∃ mem' v' q', readData fuel (w.withVectors t mem v) q stream cuts =
          .ok (some (w.withVectors t mem' v', q')) ∧ q'.hdr = hdr ∧ v'.CursorOk ∧
        v'.iov = some iov ∧ v'.offset ≤ offset + iscsiGetPduDataSize hdr ∧
        (iovecBytes mem' iov).take (offset + iscsiGetPduDataSize hdr) =
          data ++ stream.take (iscsiGetPduDataSize hdr - q.dataPos)
  | 0, _, _, _, _, _, _, _, _, h, _, _, _, _ => by simp at h
  | fuel + 1, mem, v, q, stream, data, cuts, hq, hlen, hfuel, hc, hiov, hcur, hdata => by
    rw [readData]
    simp only [hq]
    by_cases hlt : q.dataPos < (iscsiGetPduDataSize hdr + iscsiGetPduPaddingSize hdr)
    swap
    · rw [if_neg hlt]
      have hge : iscsiGetPduDataSize hdr ≤ q.dataPos := by
        omega
      rw [Nat.min_eq_right hge] at hcur hdata
      have hnil : stream = [] := List.length_eq_zero_iff.1 (by omega)
      exact ⟨mem, v, q, rfl, hq, hc, hiov, hcur,
        by rw [hnil, List.take_nil, List.append_nil, hdata]⟩
    rw [if_pos hlt, readOnce, hfind q mem v hq hiov, Outcome.ok_bind]
    simp only [hq]
    set n := cuts.headD (iscsiGetPduDataSize hdr + iscsiGetPduPaddingSize hdr) with hn
    by_cases hdat : q.dataPos < iscsiGetPduDataSize hdr
    · -- bytes of the data: they go into the vectors
      rw [if_pos (by omega)]
      have hcount : iscsiGetPduDataSize hdr + iscsiGetPduPaddingSize hdr - q.dataPos -
          iscsiGetPduPaddingSize hdr = iscsiGetPduDataSize hdr - q.dataPos := by omega
      rw [Nat.min_eq_left hdat.le] at hcur hdata
      obtain ⟨v', sel, hsel, hcur'⟩ := iovectorSelect_finds (q.dataPos + offset)
        (iscsiGetPduDataSize hdr - q.dataPos) hc hiov
        (by omega) (by omega) (by omega) hsize
      have hspec := fun mem => iovectorSelect_spec mem hc hiov (by omega) hsel
      have haddrs : iovecAddrs sel = ((iovecAddrs iov).drop (q.dataPos + offset)).take
          (iscsiGetPduDataSize hdr - q.dataPos) := addrs_ext fun mem => by
        have := ((hspec mem).2.2 sel rfl).1
        rwa [iovecBytes_eq_map, iovecBytes_eq_map, ← List.map_drop, ← List.map_take] at this
      have htask : ((w.withVectors t mem v).tasks t).iovectorIn = v := by
        simp [World.withVectors]
      simp only [hcount, hoffset, htask]
      rw [Nat.mod_eq_of_lt (by omega), hsel]
      simp only
      set bytes := stream.take (min (n + 1) (iscsiGetPduDataSize hdr - q.dataPos)) with hbytes
      have hblen : bytes.length = min (n + 1) (iscsiGetPduDataSize hdr - q.dataPos) := by
        rw [hbytes, List.length_take]
        omega
      have htake : bytes = stream.take bytes.length := by rw [hblen]
      clear_value bytes
      have hstored := iovecBytes_storeAt mem bytes hnd haddrs (by omega)
        (by omega)
      have hworld : ({ w.withVectors t mem v with
          mem := storeAt (w.withVectors t mem v).mem (iovecAddrs sel) bytes } : World).modifyTask t
            (fun task => { task with iovectorIn := v' }) =
          w.withVectors t (storeAt mem (iovecAddrs sel) bytes) v' := by
        simp [World.withVectors, World.modifyTask]
      rw [hworld]
      obtain ⟨mem', v'', q', hread, hhdr, hc', hiov', hoff', hbytes'⟩ :=
        readData_vectors hnd hsize hfind hoffset hfit fuel
          (storeAt mem (iovecAddrs sel) bytes) v' { q with dataPos := q.dataPos + bytes.length }
          (stream.drop bytes.length) (data ++ bytes) cuts.tail hq
          (by simp only [List.length_drop]; omega) (by rw [List.length_drop]; omega)
          (hspec mem).1 (hspec mem).2.1 (by simp only; omega) (by
            simp only
            rw [Nat.min_eq_left (by omega), ← hdata, ← Nat.add_assoc, Nat.add_comm offset,
              ← hstored])
      refine ⟨mem', v'', q', by simpa only [Outcome.ok_bind, hq] using hread, hhdr, hc', hiov',
        hoff', ?_⟩
      rw [hbytes', List.append_assoc]
      congr 1
      calc bytes ++ (stream.drop bytes.length).take
            (iscsiGetPduDataSize hdr - (q.dataPos + bytes.length))
          = stream.take bytes.length ++ (stream.drop bytes.length).take
              (iscsiGetPduDataSize hdr - (q.dataPos + bytes.length)) := by rw [← htake]
        _ = stream.take (bytes.length + (iscsiGetPduDataSize hdr - (q.dataPos + bytes.length))) :=
            List.take_add.symm
        _ = stream.take (iscsiGetPduDataSize hdr - q.dataPos) := by
            congr 1
            omega
    · -- padding: it goes nowhere
      rw [if_neg (by omega)]
      set bytes := stream.take (min (n + 1) (iscsiGetPduDataSize hdr +
        iscsiGetPduPaddingSize hdr - q.dataPos)) with hbytes
      have hblen : 0 < bytes.length ∧ bytes.length ≤ stream.length := by
        rw [hbytes, List.length_take]
        omega
      rw [Nat.min_eq_right (by omega)] at hcur hdata
      obtain ⟨mem', v'', q', hread, hhdr, hc', hiov', hoff', hbytes'⟩ :=
        readData_vectors hnd hsize hfind hoffset hfit fuel mem v
          { q with dataPos := q.dataPos + bytes.length } (stream.drop bytes.length) data cuts.tail
          hq
          (by simp only [List.length_drop]; omega) (by rw [List.length_drop]; omega) hc hiov
          (by simp only; omega) (by
            simp only
            rw [Nat.min_eq_right (by omega)]
            exact hdata)
      refine ⟨mem', v'', q', by simpa only [Outcome.ok_bind, hq] using hread, hhdr, hc', hiov',
        hoff', ?_⟩
      rw [hbytes']
      simp only
      rw [Nat.sub_eq_zero_of_le (by omega), Nat.sub_eq_zero_of_le (by omega), List.take_zero,
        List.take_zero]

end Libiscsi
