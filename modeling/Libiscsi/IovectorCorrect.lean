import Libiscsi.IovectorTransfer
import Libiscsi.Lib.Run

/-!
# A transfer is an exact slice

The vectors that `iscsi_iovector_readv_writev` passes to the system call are those of the bytes
`[pos, pos + count)`, every vector is as it was afterwards, and the cursor stays right, for every
`count` of less than 32 bits (`iovector_exact`). A `count` of more than 32 bits is cut by the sum
`len2`, and a slice that is not in the vectors is transferred.
-/

namespace Libiscsi

/-! ## Cutting and restoring the vectors -/

section
variable {α : Type*} (f : α → α) (l l' : List α) (i : Nat)

/-- An element of the second part of a list is changed. -/
theorem modify_length_add : (l ++ l').modify (l.length + i) f = l ++ l'.modify i f := by
  induction l with
  | nil => simp
  | cons a l ih =>
    rw [List.cons_append, List.length_cons, Nat.succ_add, List.modify_succ_cons, ih,
      List.cons_append]

theorem modify_length : (l ++ l').modify l.length f = l ++ l'.modify 0 f :=
  modify_length_add f l l' 0

end

theorem ScsiIovec.advance_iovLen (x : ScsiIovec) (pos : Nat) :
    (x.advance pos).iovLen = (x.iovLen + 2 ^ 64 - pos) % 2 ^ 64 := rfl

theorem ScsiIovec.setLen_iovLen (x : ScsiIovec) (len : Nat) : (x.setLen len).iovLen = len := rfl

theorem iovecLength_singleton (x : ScsiIovec) : iovecLength [x] = x.iovLen := by
  simp [iovecLength]

/-- A vector is in the address space, and so is its end. -/
def ScsiIovec.Valid (x : ScsiIovec) : Prop := x.iovBase + x.iovLen < 2 ^ 64

section
variable {x : ScsiIovec} {pos : Nat}

theorem ScsiIovec.retreat_advance (hx : x.Valid) (hpos : pos < 2 ^ 64) :
    (x.advance pos).retreat pos = x := by
  obtain ⟨base, length⟩ := x
  unfold Valid at hx
  simp only at hx
  simp only [advance, retreat, mk.injEq]
  constructor <;> omega

theorem ScsiIovec.setLen_retreat_advance (len : Nat) (hx : x.Valid) (hpos : pos < 2 ^ 64) :
    (((x.setLen len).advance pos).retreat pos).setLen x.iovLen = x := by
  obtain ⟨base, length⟩ := x
  unfold Valid at hx
  simp only at hx
  simp only [advance, retreat, setLen, mk.injEq, and_true]
  omega

/-- A vector that has the position is cut at it. -/
theorem ScsiIovec.advance_eq (hx : x.Valid) (hpos : pos ≤ x.iovLen) :
    x.advance pos = { iovBase := x.iovBase + pos, iovLen := x.iovLen - pos } := by
  obtain ⟨base, length⟩ := x
  unfold Valid at hx
  simp only at hx hpos
  simp only [advance, mk.injEq]
  constructor <;> omega

end

/-- The vectors that are passed to the system call. -/
def selectVectors (pre : List ScsiIovec) (x : ScsiIovec) (pos len2 : Nat) : List ScsiIovec :=
  (pre ++ [x.setLen len2]).modifyHead (·.advance pos)

/-- What a transfer with these vectors leaves: all of the vectors are as they were. -/
structure TransferredWith (call : VectorCall) (s : Transfer) (sel : List ScsiIovec) (count : Nat)
    (r : Transferred) : Prop where
  passed : r.passed = some sel
  iovector : r.state.iovector = s.iovector
  mem : r.state.mem = (call sel s.mem).2
  ok : ∀ n, (call sel s.mem).1 = some n → r.ret = (if n > count then none else some n) ∧
    r.state.digest = s.digest.map (digestVectors r.state.mem sel n)
  error : (call sel s.mem).1 = none → r.ret = none ∧ r.state.digest = s.digest

section
variable {call : VectorCall} {s : Transfer} {iov before pre post : List ScsiIovec} {x : ScsiIovec}
  {pos count len2 : Nat}

/-- **The vectors are restored after the call.** -/
theorem transferVectors_spec (hiov : s.iovector.iov = some iov)
    (hsplit : iov = before ++ (pre ++ x :: post)) (hfirst : s.iovector.consumed = before.length)
    (hvalid : ∀ y ∈ iov, y.Valid) (hpos : pos < 2 ^ 64) :
    TransferredWith call s (selectVectors pre x pos len2) count
      (transferVectors call s iov pos count pre.length len2) := by
  have hx : x.Valid := hvalid x (by simp [hsplit])
  have hlen : (iov[before.length + pre.length]?.getD {}).iovLen = x.iovLen := by
    rw [hsplit, List.getElem?_append_right (by omega), Nat.add_sub_cancel_left,
      List.getElem?_append_right (le_refl _), Nat.sub_self]
    rfl
  set cut := (iov.modify (before.length + pre.length) (·.setLen len2)).modify before.length
    (·.advance pos) with hcut
  have hsel : (cut.drop before.length).take (pre.length + 1) = selectVectors pre x pos len2 := by
    rw [hcut, hsplit, modify_length_add, modify_length, List.drop_left, modify_length]
    cases pre with
    | nil => rfl
    | cons y ys =>
      simp [selectVectors, List.take_append]
  have hrestored : (cut.modify before.length (·.retreat pos)).modify
      (before.length + pre.length) (·.setLen x.iovLen) = iov := by
    rw [hcut, hsplit, modify_length_add, modify_length, modify_length, modify_length,
      modify_length_add]
    cases pre with
    | nil =>
      have := ScsiIovec.setLen_retreat_advance len2 hx hpos
      simp [this]
    | cons y ys =>
      have hy : y.Valid := hvalid y (by simp [hsplit])
      have hys := modify_length (fun z : ScsiIovec => z.setLen x.iovLen) ys
        (x.setLen len2 :: post)
      simp [ScsiIovec.retreat_advance hy hpos, modify_length, ScsiIovec.setLen]
  have hself : ({ s.iovector with iov := some iov, consumed := before.length } : ScsiIovector) =
      s.iovector := by rw [← hiov, ← hfirst]
  unfold transferVectors
  simp only [hfirst, hlen, ← hcut, hsel, hrestored]
  rcases hc : call (selectVectors pre x pos len2) s.mem with ⟨_ | n, mem⟩
  · refine ⟨rfl, hself, by rw [hc], fun n hn => ?_, fun _ => ⟨rfl, rfl⟩⟩
    rw [hc] at hn
    cases hn
  · refine ⟨rfl, hself, by rw [hc], fun m hm => ?_, fun hn => ?_⟩
    · rw [hc] at hm
      obtain rfl := Option.some.inj hm
      exact ⟨rfl, rfl⟩
    · rw [hc] at hn
      cases hn

/-- The vectors that are passed have the bytes from the position in the first of them on. -/
theorem selectVectors_addrs (hvalid : ∀ y ∈ pre ++ x :: post, y.Valid) (hlen2 : len2 ≤ x.iovLen)
    (hhead : ∀ y ys, pre ++ x :: post = y :: ys → pos ≤ y.iovLen)
    (hpos : pos ≤ iovecLength pre + len2) :
    iovecAddrs (selectVectors pre x pos len2) =
      ((iovecAddrs (pre ++ x :: post)).take (iovecLength pre + len2)).drop pos := by
  have hadvance : ∀ y : ScsiIovec, y.Valid → pos ≤ y.iovLen → ∀ l,
      iovecAddrs (y.advance pos :: l) = (iovecAddrs (y :: l)).drop pos := by
    intro y hy hle l
    rw [ScsiIovec.advance_eq hy hle, iovecAddrs_cons, iovecAddrs_cons,
      List.drop_append_of_le_length (by simpa using hle)]
    congr 1
    apply List.ext_getElem
    · simp
    · intro i h₁ h₂
      simp [Nat.add_assoc]
  have htake : (iovecAddrs (pre ++ x :: post)).take (iovecLength pre + len2) =
      iovecAddrs (pre ++ [x.setLen len2]) := by
    rw [iovecAddrs_append, iovecAddrs_append, ← length_iovecAddrs, List.take_length_add_append,
      iovecAddrs_cons, iovecAddrs_cons, iovecAddrs_nil, List.append_nil,
      List.take_append_of_le_length (by simpa using hlen2), ← List.map_take, List.take_range,
      Nat.min_eq_left hlen2]
    rfl
  rw [htake]
  unfold selectVectors
  cases pre with
  | nil =>
    have hx : (x.setLen len2).Valid := by
      have := hvalid x (by simp)
      unfold ScsiIovec.Valid at *
      simp only [ScsiIovec.setLen]
      omega
    exact hadvance _ hx (by simpa [iovecLength, ScsiIovec.setLen] using hpos) []
  | cons y ys =>
    exact hadvance y (hvalid y (by simp)) (hhead y _ rfl) _

end

/-- A sum of more than 32 bits makes the length of the only vector negative. -/
theorem selectVectors_overflow {x : ScsiIovec} {pos len2 : Nat} (h : len2 < pos)
    (hpos : pos < 2 ^ 32) : 2 ^ 63 ≤ iovecLength (selectVectors [] x pos len2) := by
  have hlen : iovecLength (selectVectors [] x pos len2) =
      ((x.setLen len2).advance pos).iovLen := iovecLength_singleton _
  have hadvance := (x.setLen len2).advance_iovLen pos
  have hset := x.setLen_iovLen len2
  omega

/-! ## The transfer -/

/-- The slice is in the vectors, and not before the position that the cursor remembers. -/
def Transfer.Inside (s : Transfer) (pos count : Nat) : Prop :=
  s.iovector.offset ≤ pos ∧ pos + count ≤ iovecLength (s.iovector.iov.getD [])

section
variable {call : VectorCall} {s : Transfer} {iov : List ScsiIovec} {pos count : Nat}

/-- A transfer is refused with the cursor moved, or it passes vectors to the system call. -/
theorem transfer_cases (call : VectorCall) (hiov : s.iovector.iov = some iov)
    (hc : s.iovector.CursorOk) (hvalid : ∀ y ∈ iov, y.Valid) (hpos : pos < 2 ^ 32)
    (hcount : 0 < count) :
    ∃ v : ScsiIovector, v.iov = some iov ∧ v.CursorOk ∧
      (iscsiIovectorReadvWritev call s pos count = { s with iovector := v }.refuse ∧
          (count < 2 ^ 32 → ¬s.Inside pos count) ∨
        ∃ before pre x post pos' len2, iov = before ++ (pre ++ x :: post) ∧
          s.iovector.offset ≤ pos ∧ pos = iovecLength before + pos' ∧
          (pos' + count) % 2 ^ 32 = iovecLength pre + len2 ∧ len2 ≤ x.iovLen ∧
          (∀ y ys, pre ++ x :: post = y :: ys → pos' < y.iovLen) ∧
          TransferredWith call { s with iovector := v } (selectVectors pre x pos' len2) count
            (iscsiIovectorReadvWritev call s pos count)) := by
  have hinside : s.Inside pos count ↔ s.iovector.offset ≤ pos ∧ pos + count ≤ iovecLength iov := by
    rw [Transfer.Inside, hiov]
    rfl
  have htotal := congrArg iovecLength (List.take_append_drop s.iovector.consumed iov)
  rw [iovecLength_append, ← hc iov hiov] at htotal
  unfold iscsiIovectorReadvWritev
  rw [hiov, hinside]
  simp only
  split_ifs with hoff hcons
  · exact ⟨s.iovector, hiov, hc, .inl ⟨rfl, fun _ h => by omega⟩⟩
  · rw [List.drop_of_length_le hcons] at htotal
    simp only [iovecLength, List.map_nil, List.sum_nil] at htotal
    refine ⟨s.iovector, hiov, hc, .inl ⟨rfl, fun _ h => ?_⟩⟩
    unfold iovecLength at h
    omega
  rcases hhead : iovectorHead (iov.drop s.iovector.consumed) s.iovector
    (pos - s.iovector.offset) with ⟨v, r⟩
  obtain ⟨skipped, rest, hsplit, hv, hr⟩ := iovectorHead_spec hhead
  have hcv : v.CursorOk := by
    rw [hv]
    exact hc.moved hiov hsplit
  have hiovv : v.iov = some iov := by rw [hv]; exact hiov
  refine ⟨v, hiovv, hcv, ?_⟩
  rcases r with _ | ⟨rest', pos'⟩
  · have := iovectorHead_none hhead
    exact .inl ⟨rfl, fun _ h => by omega⟩
  obtain ⟨rfl, hpos'⟩ := hr _ rfl
  obtain ⟨y, ys, hy, hlt⟩ := iovectorHead_some hhead
  rw [hsplit, iovecLength_append] at htotal
  simp only at hpos' htotal ⊢
  rcases hlast : iovectorLast rest' ((pos' + count) % 2 ^ 32) with _ | ⟨k, len2⟩
  · refine .inl ⟨rfl, fun hcount32 h => ?_⟩
    -- a sum of more than 32 bits is a position in the first vector
    by_cases hsum : pos' + count < 2 ^ 32
    · rw [Nat.mod_eq_of_lt hsum, iovectorLast_eq_none (by omega)] at hlast
      omega
    · have hn : (pos' + count) % 2 ^ 32 = pos' + count - 2 ^ 32 := by omega
      rw [hn, hy] at hlast
      unfold iovectorLast at hlast
      rw [if_neg (by omega)] at hlast
      cases hlast
  · obtain ⟨pre, x, post, rfl, rfl, hn, hle⟩ := iovectorLast_some hlast
    have hall : iov = (iov.take s.iovector.consumed ++ skipped) ++ (pre ++ x :: post) := by
      rw [List.append_assoc, ← hsplit, List.take_append_drop]
    have hbefore : iovecLength (iov.take s.iovector.consumed ++ skipped) =
        s.iovector.offset + iovecLength skipped := by
      rw [iovecLength_append, ← hc iov hiov]
    refine .inr ⟨_, pre, x, post, pos', len2, hall, by omega, by omega, hn, hle, ?_, ?_⟩
    · intro y' ys' hy'
      obtain ⟨rfl, _⟩ := List.cons.inj (hy.symm.trans hy')
      exact hlt
    · refine transferVectors_spec (s := { s with iovector := v }) hiovv hall ?_ hvalid (by omega)
      rw [hv]
      simp only [List.length_append, List.length_take]
      omega

end

/-! ## The transfers of a task -/

/-- What is done with the vectors of a task: transfers, and `scsi_task_reset_iov`. -/
inductive TransferAct where
  | transfer (call : VectorCall) (pos count : Nat)
  | reset

/-- The steps. Between them the memory and the digest may change. -/
def TransferStep : TransferAct → Transfer → Transfer → Prop
  | .transfer call pos count, s, s' => pos < 2 ^ 32 ∧ 0 < count ∧ ∃ mem digest,
    s' = { (iscsiIovectorReadvWritev call s pos count).state with mem, digest }
  | .reset, s, s' => s' = { s with iovector := scsiTaskResetIov s.iovector }

/-- The vectors as the application set them: they are in the address space, they have less than
2³¹ bytes, and no transfer was made. -/
structure Transfer.Start (s : Transfer) : Prop where
  offset : s.iovector.offset = 0
  consumed : s.iovector.consumed = 0
  valid : ∀ x ∈ s.iovector.iov.getD [], x.Valid
  total : iovecLength (s.iovector.iov.getD []) < 2 ^ 31

/-- The documented behaviour of `readv` and `writev`: `EINVAL` when the lengths do not fit in an
`ssize_t`. -/
def RefusesOverflow (call : VectorCall) : Prop :=
  ∀ iov mem, 2 ^ 63 ≤ iovecLength iov → call iov mem = (none, mem)

/-- A transfer is exact: it restores the vectors and keeps the cursor right; a slice that is in the
vectors is passed to the system call, whose result it returns, with the digest of the bytes that
were transferred; any other slice is refused. -/
structure ExactTransfer (call : VectorCall) (s : Transfer) (pos count : Nat) (r : Transferred) :
    Prop where
  restored : r.state.iovector.iov = s.iovector.iov
  cursor : r.state.iovector.CursorOk
  inside : s.Inside pos count → ∃ sel, r.passed = some sel ∧
    iovecAddrs sel = ((iovecAddrs (s.iovector.iov.getD [])).drop pos).take count ∧
    r.state.mem = (call sel s.mem).2 ∧
    (∀ n, (call sel s.mem).1 = some n → n ≤ count → r.ret = some n ∧
      r.state.digest = s.digest.map fun digest => crc32cChain digest
        ((((iovecAddrs (s.iovector.iov.getD [])).drop pos).take n).map r.state.mem)) ∧
    ((call sel s.mem).1 = none → r.ret = none ∧ r.state.digest = s.digest)
  outside : ¬s.Inside pos count →
    r.ret = none ∧ r.state.mem = s.mem ∧ r.state.digest = s.digest

section
variable {call : VectorCall} {s₀ s : Transfer} {pos count : Nat}

/-- What every transfer keeps. -/
structure TransferInv (s₀ s : Transfer) : Prop where
  iov : s.iovector.iov = s₀.iovector.iov
  cursor : s.iovector.CursorOk

theorem TransferInv.transfer (call : VectorCall) (h₀ : s₀.Start) (hi : TransferInv s₀ s)
    (hpos : pos < 2 ^ 32) (hcount : 0 < count) :
    TransferInv s₀ (iscsiIovectorReadvWritev call s pos count).state := by
  cases hiov : s.iovector.iov with
  | none =>
    have : (iscsiIovectorReadvWritev call s pos count).state = s := by
      unfold iscsiIovectorReadvWritev
      rw [hiov]
      rfl
    rwa [this]
  | some iov =>
    have hvalid : ∀ x ∈ iov, x.Valid := by
      have := h₀.valid
      rwa [← hi.iov, hiov] at this
    obtain ⟨v, hv, hcv, ⟨hr, _⟩ | ⟨_, _, _, _, _, _, _, _, _, _, _, _, hr⟩⟩ :=
      transfer_cases call hiov hi.cursor hvalid hpos hcount
    · rw [hr]
      exact ⟨hv.trans (hiov.symm.trans hi.iov), hcv⟩
    · have hstate := hr.iovector
      exact ⟨by rw [hstate]; exact hv.trans (hiov.symm.trans hi.iov), by rw [hstate]; exact hcv⟩

/-- Every transfer and every reset restores the vectors and keeps the cursor right. -/
theorem TransferInv.run (h₀ : s₀.Start) (hrun : Run TransferStep s₀ s) : TransferInv s₀ s := by
  refine hrun.invariant ⟨rfl, fun iov _ => ?_⟩ fun act t t' hi h => ?_
  · rw [h₀.offset, h₀.consumed]
    rfl
  · cases act with
    | transfer call pos count =>
      obtain ⟨hpos, hcount, mem, digest, rfl⟩ := h
      have := hi.transfer call h₀ hpos hcount
      exact ⟨this.iov, this.cursor⟩
    | reset =>
      obtain rfl := h
      exact ⟨hi.iov, fun iov _ => rfl⟩

/-- **A transfer of less than 2³² bytes is an exact slice**, after any transfers and resets. -/
theorem iovector_exact (hcall : RefusesOverflow call) (h₀ : s₀.Start)
    (hrun : Run TransferStep s₀ s) (hpos : pos < 2 ^ 32) (hcount : 0 < count)
    (hcount32 : count < 2 ^ 32) :
    ExactTransfer call s pos count (iscsiIovectorReadvWritev call s pos count) := by
  have hi := TransferInv.run h₀ hrun
  have hi' := hi.transfer call h₀ hpos hcount
  have hvalid := h₀.valid
  have htotal := h₀.total
  rw [← hi.iov] at hvalid htotal
  cases hiov : s.iovector.iov with
  | none =>
    have hr : iscsiIovectorReadvWritev call s pos count = s.refuse := by
      unfold iscsiIovectorReadvWritev
      rw [hiov]
    refine ⟨hi'.iov.trans hi.iov.symm, hi'.cursor, fun h => ?_,
      fun _ => by rw [hr]; exact ⟨rfl, rfl, rfl⟩⟩
    have hle := h.2
    rw [hiov] at hle
    simp [iovecLength] at hle
    omega
  | some iov =>
    rw [hiov, Option.getD_some] at hvalid htotal
    obtain ⟨v, hv, hcv, ⟨hr, hout⟩ |
        ⟨before, pre, x, post, pos', len2, hall, hoff, hposeq, hn, hle, hhead, hr⟩⟩ :=
      transfer_cases call hiov hi.cursor hvalid hpos hcount
    · exact ⟨hi'.iov.trans hi.iov.symm, hi'.cursor, fun h => absurd h (hout hcount32),
        fun _ => by rw [hr]; exact ⟨rfl, rfl, rfl⟩⟩
    have hlen : iovecLength iov =
        iovecLength before + (iovecLength pre + (x.iovLen + iovecLength post)) := by
      rw [hall, iovecLength_append, iovecLength_append, iovecLength_cons]
    have hinside : s.Inside pos count ↔ pos + count ≤ iovecLength iov := by
      rw [Transfer.Inside, hiov]
      exact and_iff_right hoff
    refine ⟨hi'.iov.trans hi.iov.symm, hi'.cursor, fun h => ?_, fun h => ?_⟩
    · rw [hinside] at h
      rw [Nat.mod_eq_of_lt (by omega)] at hn
      have haddrs : iovecAddrs (selectVectors pre x pos' len2) =
          ((iovecAddrs iov).drop pos).take count := by
        rw [selectVectors_addrs (fun y hy => hvalid y (hall ▸ List.mem_append_right _ hy)) hle
            (fun y ys hy => Nat.le_of_lt (hhead y ys hy)) (by omega), hall,
          iovecAddrs_append before, hposeq, ← length_iovecAddrs before, List.drop_length_add_append,
          List.drop_take, show iovecLength pre + len2 - pos' = count by omega]
      have hget : s.iovector.iov.getD [] = iov := by simp [hiov]
      rw [hget]
      refine ⟨_, hr.passed, haddrs, hr.mem, fun n hcalled hle => ?_, hr.error⟩
      obtain ⟨hret, hdigest⟩ := hr.ok n hcalled
      refine ⟨by rw [hret, if_neg (Nat.not_lt.2 hle)], ?_⟩
      rw [hdigest]
      refine congrArg (fun f => Option.map f s.digest) (funext fun digest => ?_)
      rw [digestVectors_eq, haddrs, List.take_take, Nat.min_eq_left hle]
    · -- the sum does not fit in 32 bits, and the length of the only vector is negative
      have h : ¬pos + count ≤ iovecLength iov := mt hinside.2 h
      have hsum : 2 ^ 32 ≤ pos' + count := by
        rcases Nat.lt_or_ge (pos' + count) (2 ^ 32) with hlt | hge
        · rw [Nat.mod_eq_of_lt hlt] at hn
          omega
        · exact hge
      have hn' : pos' + count - 2 ^ 32 = iovecLength pre + len2 := by
        rw [← hn]
        omega
      have hpre : pre = [] := by
        cases pre with
        | nil => rfl
        | cons y ys =>
          have := hhead y _ rfl
          rw [iovecLength_cons] at hn'
          omega
      subst hpre
      have hx := hhead x post rfl
      have hless : len2 < pos' := by
        rw [iovecLength, List.map_nil, List.sum_nil, Nat.zero_add] at hn'
        omega
      have hrefuse := hcall _ s.mem (selectVectors_overflow (x := x) hless (by omega))
      obtain ⟨hret, hdigest⟩ := hr.error (congrArg Prod.fst hrefuse)
      exact ⟨hret, hr.mem.trans (congrArg Prod.snd hrefuse), hdigest⟩

end

/-! ## A count of more than 32 bits -/

/-- A system call that transfers everything. -/
def transferAll : VectorCall := fun iov mem =>
  if 2 ^ 63 ≤ iovecLength iov then (none, mem) else (some (iovecLength iov), mem)

theorem refusesOverflow_transferAll : RefusesOverflow transferAll := fun _ _ h => if_pos h

/-- One vector of eight bytes. -/
def eightBytes : Transfer where
  iovector := { iov := some [{ iovBase := 4096, iovLen := 8 }] }
  mem _ := 0
  digest := none

theorem eightBytes_start : eightBytes.Start := by
  refine ⟨rfl, rfl, fun x hx => ?_, by decide⟩
  obtain rfl := List.mem_singleton.1 hx
  change 4096 + 8 < 2 ^ 64
  decide

/-- A slice of the eight bytes. -/
theorem iovector_exact_slice : ExactTransfer transferAll eightBytes 2 3
    (iscsiIovectorReadvWritev transferAll eightBytes 2 3) :=
  iovector_exact refusesOverflow_transferAll eightBytes_start .refl (by decide) (by decide)
    (by decide)

/-- The slice of 2³² + 3 bytes is not in the eight bytes, and three of them are transferred. -/
theorem iovector_long_count : ¬∀ (call : VectorCall) (s₀ s : Transfer) (pos count : Nat),
    RefusesOverflow call → s₀.Start → Run TransferStep s₀ s → pos < 2 ^ 32 → 0 < count →
      ExactTransfer call s pos count (iscsiIovectorReadvWritev call s pos count) := by
  intro h
  have hexact := h transferAll eightBytes eightBytes 0 4294967299 refusesOverflow_transferAll
    eightBytes_start .refl (by decide) (by decide)
  have hout : ¬eightBytes.Inside 0 4294967299 := by
    unfold Transfer.Inside
    decide
  obtain ⟨hret, _⟩ := hexact.outside hout
  have hthree : (iscsiIovectorReadvWritev transferAll eightBytes 0 4294967299).ret = some 3 := rfl
  rw [hthree] at hret
  cases hret

end Libiscsi
