import Libiscsi.Decode
import Libiscsi.UnmarshallCorrect

/-!
# The command descriptors of REPORT SUPPORTED OPERATION CODES

The reply about all operation codes is a list of descriptors of eight bytes, each of which may be
followed by a timeouts descriptor with a length of its own. The loop follows the length that the
data declares, and not the data, and reads a timeouts descriptor whatever its length is
(`opcodesListed_iff`).
-/

namespace Libiscsi.Decode

open Bounded Unmarshall Outcome

section
variable (d : List UInt8)

/-! ## The descriptors that are there -/

/-- The descriptor at `i` has a timeouts descriptor. -/
def hasTimeouts (i : Nat) : Bool := uint d 1 (i + 5) &&& 0x02 != 0

/-- The number of bytes of the timeouts descriptor of the descriptor at `i`. -/
def timeoutsSize (i : Nat) : Nat := if hasTimeouts d i then uint d 2 (i + 8) + 2 else 0

/-- The descriptor at `i` ends, with its timeouts descriptor, before `e`. -/
def Whole (e i : Nat) : Prop := i + 8 + timeoutsSize d i ≤ e

/-- The timeouts descriptor that the bytes are; what is not there is zero. -/
def timeoutsOf (slice : List UInt8) : OpTimeoutDescriptor where
  descriptorLength := uint slice 2 0
  commandSpecific := uint slice 1 3
  nominalProcessingTimeout := uint slice 4 4
  recommendedTimeout := uint slice 4 8

/-- The descriptor at `i`, with its timeouts. -/
def commandWith (i : Nat) (timeouts : OpTimeoutDescriptor) : CommandDescriptor where
  opcode := uint d 1 i
  sa := uint d 2 (i + 2)
  ctdp := hasTimeouts d i
  servactv := uint d 1 (i + 5) &&& 0x01 != 0
  cdbLen := uint d 2 (i + 6)
  timeouts

/-- The descriptor at `i`. -/
def commandAt (i : Nat) : CommandDescriptor :=
  commandWith d i (if hasTimeouts d i then timeoutsOf ((d.drop (i + 8)).take (timeoutsSize d i))
    else {})

/-- The descriptors from `i` on that are whole before `e`. -/
inductive Lists (e : Nat) : Nat → List CommandDescriptor → Prop where
  | done {i : Nat} : ¬Whole d e i → Lists e i []
  | next {i : Nat} {descs : List CommandDescriptor} : Whole d e i →
      Lists e (i + 8 + timeoutsSize d i) descs → Lists e i (commandAt d i :: descs)

/-- The declared end of the descriptors, or the end of the data if it comes first. -/
def descriptorsEnd : Nat := min (uint d 4 0 + 4) d.length

/-- The list has the descriptors that are whole, and room for them; there is none only without a
header. -/
def OpcodesListed : Prop :=
  ∃ r, reportAllOpcodes d = .ok r ∧ (r = none → d.length < 4) ∧
    ∀ list, r = some list → Lists d (descriptorsEnd d) 4 list.descriptors ∧
      list.numDescriptors = list.descriptors.length ∧
      list.numDescriptors ≤ (list.allocated - 4) / 20

/-! ## Which data is right -/

/-- What stands where a field of the timeouts descriptor is read that is not in it is zero. -/
def TimeoutsPadded (i : Nat) : Prop :=
  i + 16 < 2 ^ 31 ∧ (timeoutsSize d i < 4 → uint d 1 (i + 11) = 0) ∧
    (timeoutsSize d i < 8 → uint d 4 (i + 12) = 0) ∧
    (timeoutsSize d i < 12 → uint d 4 (i + 16) = 0)

/-- From `i` on, every descriptor that begins eight bytes before `last` is whole before `e`, with
its timeouts descriptor padded. -/
def AllWhole (e last : Nat) : Nat → Nat → Prop
  | 0, _ => True
  | fuel + 1, i => i + 8 ≤ last → Whole d e i ∧ (hasTimeouts d i = true → TimeoutsPadded d i) ∧
      AllWhole e last fuel (i + 8 + timeoutsSize d i)

/-- The data for which the list is right. -/
def OpcodesRight : Prop :=
  d.length < 4 ∨ if uint d 4 0 < 2 ^ 31 then
    AllWhole d (descriptorsEnd d) (uint d 4 0 + 4) (uint d 4 0) 4
  else 2 ^ 32 - 8 < uint d 4 0 ∧ ¬Whole d (descriptorsEnd d) 4

end

/-! ## One descriptor -/

section
variable {d : List UInt8} {e last i : Nat}

theorem not_lists_cons {desc : CommandDescriptor} {descs : List CommandDescriptor}
    (h : ¬Whole d e i) : ¬Lists d e i (desc :: descs) := by
  intro hl
  cases hl with
  | next hw _ => exact h hw

/-- The timeouts that are read are those of the descriptor exactly if it is padded. -/
theorem timeouts_eq_iff (ht : hasTimeouts d i = true)
    (hw : Whole d d.length i) (hi : i + 16 < 2 ^ 31) :
    (⟨uint d 2 (i + 8), uint d 1 (i + 11), uint d 4 (i + 12), uint d 4 (i + 16)⟩ :
      OpTimeoutDescriptor) = timeoutsOf ((d.drop (i + 8)).take (timeoutsSize d i)) ↔
        TimeoutsPadded d i := by
  have hsize : timeoutsSize d i = uint d 2 (i + 8) + 2 := if_pos ht
  have hlen : ((d.drop (i + 8)).take (timeoutsSize d i)).length = timeoutsSize d i := by
    unfold Whole at hw
    rw [List.length_take, List.length_drop]
    omega
  have hread : ∀ {width off : Nat}, (uint d width (i + 8 + off) =
      uint ((d.drop (i + 8)).take (timeoutsSize d i)) width off ↔
        (timeoutsSize d i < off + width → uint d width (i + 8 + off) = 0)) := by
    intro width off
    by_cases hin : off + width ≤ timeoutsSize d i
    · rw [uint_slice hin hw]
      exact iff_of_true rfl fun hlt => absurd hlt (by omega)
    · rw [@uint_of_lt ((d.drop (i + 8)).take (timeoutsSize d i)) _ _ (by omega)]
      exact ⟨fun h _ => h, fun h => h (by omega)⟩
  have hlength := (@hread 2 0).2 fun hlt => absurd hlt (by omega)
  have hspecific := @hread 1 3
  have hnominal := @hread 4 4
  have hrecommended := @hread 4 8
  unfold timeoutsOf TimeoutsPadded
  rw [OpTimeoutDescriptor.mk.injEq]
  constructor
  · rintro ⟨-, h3, h4, h8⟩
    exact ⟨hi, hspecific.1 h3, hnominal.1 h4, hrecommended.1 h8⟩
  · rintro ⟨-, h3, h4, h8⟩
    exact ⟨hlength, hspecific.2 h3, hnominal.2 h4, hrecommended.2 h8⟩

/-- One turn of the loop, if no position overflows. -/
theorem commandDescriptors_step {rsoc fuel n : Nat} {len : Int} (hlen : 8 ≤ len)
    (hroom : 4 + 20 * n + 20 ≤ rsoc) (hi : i + 8 < 2 ^ 31) :
    commandDescriptors d rsoc (fuel + 1) n i len =
      if hasTimeouts d i then
        opTimeoutDescriptor d (i + 8) >>= fun timeouts =>
          offset (i + 8 + (timeouts.descriptorLength + 2)) >>= fun next =>
            (commandDescriptors d rsoc fuel (n + 1) next
              (len - 8 - (timeouts.descriptorLength + 2 : Nat))).map (commandWith d i timeouts :: ·)
      else (commandDescriptors d rsoc fuel (n + 1) (i + 8) (len - 8)).map
        (commandWith d i {} :: ·) := by
  conv_lhs => unfold commandDescriptors
  rw [if_neg (by omega), within_of_le (by omega), ok_bind, number_of_lt (by omega), ok_bind,
    number_of_lt (by omega), ok_bind, number_of_lt (by omega), ok_bind, number_of_lt (by omega),
    ok_bind, offset_of_lt hi, ok_bind]
  simp only
  cases ht : hasTimeouts d i with
  | true =>
    have hflag : (uint d 1 (i + 5) &&& 2 != 0) = true := ht
    rw [hflag]
    simp only [Bool.not_true, Bool.false_eq_true, if_false, if_true]
    unfold commandWith
    rw [ht]
    rfl
  | false =>
    have hflag : (uint d 1 (i + 5) &&& 2 != 0) = false := ht
    rw [hflag]
    simp only [Bool.not_false, if_true, Bool.false_eq_true, if_false]
    unfold commandWith
    rw [ht]
    rfl

/-- The timeouts descriptor that is read. -/
theorem opTimeoutDescriptor_eq (hi : i + 16 < 2 ^ 31) : opTimeoutDescriptor d (i + 8) =
    .ok ⟨uint d 2 (i + 8), uint d 1 (i + 11), uint d 4 (i + 12), uint d 4 (i + 16)⟩ := by
  unfold opTimeoutDescriptor
  rw [number_of_lt (by omega), number_of_lt (by omega), number_of_lt (by omega),
    number_of_lt (by omega)]
  rfl

/-- A turn that returns has read a timeouts descriptor at a position that is an `int`. -/
theorem lt_of_opTimeoutDescriptor {timeouts : OpTimeoutDescriptor}
    (h : opTimeoutDescriptor d (i + 8) = .ok timeouts) : i + 16 < 2 ^ 31 := by
  unfold opTimeoutDescriptor at h
  obtain ⟨_, -, h⟩ := bind_eq_ok.1 h
  obtain ⟨_, -, h⟩ := bind_eq_ok.1 h
  obtain ⟨_, -, h⟩ := bind_eq_ok.1 h
  obtain ⟨_, h8, -⟩ := bind_eq_ok.1 h
  by_contra hi
  unfold number offset at h8
  rw [if_neg (by omega)] at h8
  cases h8

/-! ## The loop -/

/-- The loop ends where the declared length does. -/
theorem commandDescriptors_end {rsoc fuel n : Nat} {len : Int} (hlen : len < 8) :
    commandDescriptors d rsoc fuel n i len = .ok [] := by
  cases fuel with
  | zero => rfl
  | succ fuel =>
    unfold commandDescriptors
    exact if_pos hlen

/-- The loop lists the descriptors, if they are all whole: by induction on its turns, of which
there are enough for the bytes that are left. -/
theorem lists_of_allWhole (hd : d.length < 2 ^ 31) (hlast : e ≤ last) (hdata : e ≤ d.length) :
    ∀ {fuel n i rsoc : Nat}, AllWhole d e last fuel i → i ≤ last → last ≤ i + fuel →
      4 + 20 * (n + (last - i) / 8) ≤ rsoc →
      ∃ l, commandDescriptors d rsoc fuel n i ((last : Int) - i) = .ok l ∧ Lists d e i l ∧
        l.length ≤ (last - i) / 8
  | 0, n, i, rsoc, _, hi, hfuel, _ => by
    refine ⟨[], rfl, .done fun hw => ?_, Nat.zero_le _⟩
    unfold Whole at hw
    omega
  | fuel + 1, n, i, rsoc, hall, hi, hfuel, hroom => by
    by_cases hend : i + 8 ≤ last
    · obtain ⟨hw, hpadded, hrest⟩ := hall hend
      have hw' : i + 8 + timeoutsSize d i ≤ e := hw
      obtain ⟨l, hrun, hl, hlen⟩ := @lists_of_allWhole hd hlast hdata fuel (n + 1) _ rsoc hrest
        (by omega) (by omega) (by omega)
      refine ⟨commandAt d i :: l, ?_, .next hw hl, by rw [List.length_cons]; omega⟩
      rw [commandDescriptors_step (by omega) (by omega) (by omega)]
      cases ht : hasTimeouts d i with
      | true =>
        have hsize : timeoutsSize d i = uint d 2 (i + 8) + 2 := if_pos ht
        have hpad := hpadded ht
        have htimeouts := (timeouts_eq_iff ht (hw'.trans hdata) hpad.1).2 hpad
        rw [if_pos rfl, opTimeoutDescriptor_eq hpad.1, ok_bind]
        simp only
        rw [← hsize, offset_of_lt (by omega), ok_bind, htimeouts]
        have hlen' : (last : Int) - i - 8 - (timeoutsSize d i : Nat) =
            (last : Int) - (i + 8 + timeoutsSize d i : Nat) := by
          push_cast
          omega
        rw [hlen', hrun, commandAt, if_pos ht]
        rfl
      | false =>
        have hsize : timeoutsSize d i = 0 := if_neg (by rw [ht]; decide)
        rw [hsize] at hrun
        have hlen' : (last : Int) - i - 8 = (last : Int) - (i + 8 + 0 : Nat) := by
          push_cast
          omega
        rw [if_neg (by decide), hlen', commandAt, if_neg (by rw [ht]; decide)]
        exact congrArg (Except.map (commandWith d i {} :: ·)) hrun
    · refine ⟨[], commandDescriptors_end (by omega), .done fun hw => ?_, Nat.zero_le _⟩
      unfold Whole at hw
      omega

/-- A turn of the loop adds a descriptor, whether it is whole or not. -/
theorem commandDescriptors_adds {fuel n i rsoc : Nat} {len : Int} {l : List CommandDescriptor}
    (hlen : 8 ≤ len) (hrun : commandDescriptors d rsoc (fuel + 1) n i len = .ok l) :
    ∃ desc descs, l = desc :: descs := by
  unfold commandDescriptors at hrun
  rw [if_neg (by omega)] at hrun
  obtain ⟨_, -, hrun⟩ := bind_eq_ok.1 hrun
  obtain ⟨_, -, hrun⟩ := bind_eq_ok.1 hrun
  obtain ⟨_, -, hrun⟩ := bind_eq_ok.1 hrun
  obtain ⟨flags, -, hrun⟩ := bind_eq_ok.1 hrun
  obtain ⟨_, -, hrun⟩ := bind_eq_ok.1 hrun
  obtain ⟨_, -, hrun⟩ := bind_eq_ok.1 hrun
  simp only at hrun
  cases hflag : !(flags &&& 2 != 0) with
  | true =>
    rw [if_pos hflag] at hrun
    obtain ⟨_, -, hrun⟩ := bind_eq_ok.1 hrun
    exact ⟨_, _, (Except.ok.inj hrun).symm⟩
  | false =>
    rw [if_neg (by rw [hflag]; decide)] at hrun
    obtain ⟨_, -, hrun⟩ := bind_eq_ok.1 hrun
    obtain ⟨_, -, hrun⟩ := bind_eq_ok.1 hrun
    obtain ⟨_, -, hrun⟩ := bind_eq_ok.1 hrun
    exact ⟨_, _, (Except.ok.inj hrun).symm⟩

/-- If the loop lists the descriptors that are whole, they all are: by induction on its turns. -/
theorem allWhole_of_lists (hd : d.length < 2 ^ 31) (hdata : e ≤ d.length) :
    ∀ {fuel n i rsoc : Nat} {l : List CommandDescriptor},
      commandDescriptors d rsoc fuel n i ((last : Int) - i) = .ok l → Lists d e i l →
      4 + 20 * (n + (last - i) / 8) ≤ rsoc → AllWhole d e last fuel i
  | 0, _, _, _, _, _, _, _ => trivial
  | fuel + 1, n, i, rsoc, l, hrun, hl, hroom => by
    intro hend
    by_cases hw : Whole d e i
    · have hw' : i + 8 + timeoutsSize d i ≤ e := hw
      rw [commandDescriptors_step (by omega) (by omega) (by omega)] at hrun
      cases hl with
      | done hnot => exact absurd hw hnot
      | @next _ descs _ hrest =>
        refine ⟨hw, ?_⟩
        cases ht : hasTimeouts d i with
        | true =>
          have hsize : timeoutsSize d i = uint d 2 (i + 8) + 2 := if_pos ht
          rw [if_pos ht] at hrun
          obtain ⟨timeouts, htimeouts, hrun⟩ := bind_eq_ok.1 hrun
          have hi := lt_of_opTimeoutDescriptor htimeouts
          rw [opTimeoutDescriptor_eq hi] at htimeouts
          obtain rfl := Except.ok.inj htimeouts
          simp only at hrun
          rw [← hsize, offset_of_lt (by omega), ok_bind] at hrun
          have hlen' : (last : Int) - i - 8 - (timeoutsSize d i : Nat) =
              (last : Int) - (i + 8 + timeoutsSize d i : Nat) := by
            push_cast
            omega
          rw [hlen'] at hrun
          cases hloop : commandDescriptors d rsoc fuel (n + 1) (i + 8 + timeoutsSize d i)
              ((last : Int) - (i + 8 + timeoutsSize d i : Nat)) with
          | error err =>
            rw [hloop] at hrun
            cases hrun
          | ok rest =>
            rw [hloop] at hrun
            obtain ⟨hdesc, rfl⟩ := List.cons.inj (Except.ok.inj hrun)
            have hsame := congrArg CommandDescriptor.timeouts hdesc
            rw [commandAt, if_pos ht] at hsame
            exact ⟨fun _ => (timeouts_eq_iff ht (hw'.trans hdata) hi).1 hsame,
              allWhole_of_lists hd hdata hloop hrest (by omega)⟩
        | false =>
          have hsize : timeoutsSize d i = 0 := if_neg (by rw [ht]; decide)
          rw [if_neg (by rw [ht]; decide)] at hrun
          have hlen' : (last : Int) - i - 8 = (last : Int) - (i + 8 : Nat) := by
            push_cast
            omega
          rw [hsize, Nat.add_zero] at hrest ⊢
          rw [hlen'] at hrun
          cases hloop : commandDescriptors d rsoc fuel (n + 1) (i + 8)
              ((last : Int) - (i + 8 : Nat)) with
          | error err =>
            rw [hloop] at hrun
            cases hrun
          | ok rest =>
            rw [hloop] at hrun
            obtain ⟨-, rfl⟩ := List.cons.inj (Except.ok.inj hrun)
            exact ⟨fun h => absurd h (by decide),
              allWhole_of_lists hd hdata hloop hrest (by omega)⟩
    · exfalso
      obtain ⟨desc, descs, rfl⟩ := commandDescriptors_adds (by omega) hrun
      exact not_lists_cons hw hl

end

/-! ## All lengths -/

/-- **The data for which the list is right.** -/
theorem opcodesListed_iff (d : Unmarshall.Datain) : OpcodesListed d.data ↔ OpcodesRight d.data := by
  obtain ⟨d, hd⟩ := d
  have hlt : uint d 4 0 < 2 ^ 32 := (taskGetUint_lt d 4 0).trans_eq (by norm_num)
  simp only
  unfold OpcodesRight
  by_cases h4 : d.length < 4
  · refine iff_of_true ⟨none, if_pos h4, fun _ => h4, fun list hr => ?_⟩ (.inl h4)
    cases hr
  have hdata : descriptorsEnd d ≤ d.length := Nat.min_le_right _ _
  have hlast : descriptorsEnd d ≤ uint d 4 0 + 4 := Nat.min_le_left _ _
  have hunfold : reportAllOpcodes d =
      scsiMalloc (4 + (toInt (uint d 4 0)).tdiv 8 * 20) fun rsoc =>
        within rsoc 0 4 >>= fun _ =>
        commandDescriptors d rsoc (toInt (uint d 4 0)).toNat 0 4 (toInt (uint d 4 0)) >>=
          fun descriptors => .ok (some
            { allocated := rsoc, numDescriptors := descriptors.length, descriptors }) :=
    if_neg h4
  by_cases hpos : uint d 4 0 < 2 ^ 31
  · have htoInt : toInt (uint d 4 0) = uint d 4 0 := if_pos hpos
    have hdiv : ((uint d 4 0 : Nat) : Int).tdiv 8 = (uint d 4 0 / 8 : Nat) := by
      rw [Int.tdiv_eq_ediv_of_nonneg (by omega)]
      omega
    have hrun : reportAllOpcodes d =
        commandDescriptors d (4 + uint d 4 0 / 8 * 20) (uint d 4 0) 0 4
          (((uint d 4 0 + 4 : Nat) : Int) - (4 : Nat)) >>= fun descriptors => .ok (some
            { allocated := 4 + uint d 4 0 / 8 * 20, numDescriptors := descriptors.length,
              descriptors }) := by
      have hsize : (4 + ((uint d 4 0 / 8 : Nat) : Int) * 20).toNat = 4 + uint d 4 0 / 8 * 20 := by
        omega
      have hlen : ((uint d 4 0 + 4 : Nat) : Int) - (4 : Nat) = (uint d 4 0 : Nat) := by omega
      rw [hunfold, htoInt, hdiv, scsiMalloc_of_nonneg (by omega) (by omega), hsize,
        within_of_le (by omega), ok_bind, Int.toNat_natCast, hlen]
    rw [if_pos hpos]
    constructor
    · rintro ⟨r, hr, hnone, hsome⟩
      rw [hrun] at hr
      obtain ⟨descs, hloop, hr⟩ := bind_eq_ok.1 hr
      obtain rfl := Except.ok.inj hr
      obtain ⟨hl, -⟩ := hsome _ rfl
      exact .inr (allWhole_of_lists hd hdata hloop hl (by omega))
    · intro hall
      obtain ⟨descs, hloop, hl, hlen⟩ := @lists_of_allWhole _ _ _ hd hlast hdata _ 0 _
        (4 + uint d 4 0 / 8 * 20) (hall.resolve_left h4) (by omega) (by omega) (by omega)
      refine ⟨_, hrun.trans (bind_eq_ok.2 ⟨descs, hloop, rfl⟩), fun hnone => ?_, fun list hr => ?_⟩
      · cases hnone
      · obtain rfl := Option.some.inj hr
        exact ⟨hl, rfl, by simp only; omega⟩
  · have htoInt : toInt (uint d 4 0) = (uint d 4 0 : Int) - 2 ^ 32 := if_neg hpos
    have hdiv : 0 ≤ (uint d 4 0 : Int) - 2 ^ 32 ∧ _ ∨ _ ∧
        ((uint d 4 0 : Int) - 2 ^ 32).tdiv 8 = -(-((uint d 4 0 : Int) - 2 ^ 32) / 8) :=
      tdiv_cases ((uint d 4 0 : Int) - 2 ^ 32) 8
    rw [if_neg hpos]
    by_cases hnear : 2 ^ 32 - 8 < uint d 4 0
    · have hzero : ((uint d 4 0 : Int) - 2 ^ 32).tdiv 8 = 0 := by omega
      have hrun : reportAllOpcodes d =
          .ok (some { allocated := 4, numDescriptors := 0, descriptors := [] }) := by
        rw [hunfold, htoInt, hzero, scsiMalloc_of_nonneg (by omega) (by omega)]
        simp only [Int.zero_mul, Int.add_zero, Int.reduceToNat]
        rw [within_of_le (by omega), ok_bind, commandDescriptors_end (by omega)]
        rfl
      constructor
      · rintro ⟨r, hr, -, hsome⟩
        obtain rfl := Except.ok.inj (hrun.symm.trans hr)
        obtain ⟨hl, -⟩ := hsome _ rfl
        cases hl with
        | done hnot => exact .inr ⟨hnear, hnot⟩
      · intro hright
        refine ⟨_, hrun, fun hnone => ?_, fun list hr => ?_⟩
        · cases hnone
        · obtain rfl := Option.some.inj hr
          exact ⟨.done (hright.resolve_left h4).2, rfl, Nat.zero_le _⟩
    · have hnone : reportAllOpcodes d = .ok none := by
        rw [hunfold, htoInt]
        exact scsiMalloc_null (by omega) (by omega)
      constructor
      · rintro ⟨r, hr, hshort, -⟩
        obtain rfl := Except.ok.inj (hnone.symm.trans hr)
        exact absurd (hshort rfl) h4
      · intro hright
        exact absurd (hright.resolve_left h4).1 hnear

/-- A reply that declares one descriptor and has none: it is listed all the same. -/
theorem opcodes_invented : ¬∀ d : Unmarshall.Datain, OpcodesListed d.data := by
  intro h
  have hright := (opcodesListed_iff ⟨[0, 0, 0, 8], by decide⟩).1 (h ⟨[0, 0, 0, 8], by decide⟩)
  rcases hright with hshort | hall
  · revert hshort
    decide
  · rw [if_pos (by decide)] at hall
    obtain ⟨hw, -⟩ := hall (by decide)
    revert hw
    unfold Whole
    decide

end Libiscsi.Decode
