import Libiscsi.Decode
import Libiscsi.UnmarshallCorrect

/-!
# The two passes over the target port groups

REPORT TARGET PORT GROUPS goes over its data twice: the first pass counts the groups and the ports
that are there, and the second fills in the object that was allocated for them. Both make the same
walk over the data (`Walks`), unless a position overflows (`groupsParsed_iff`).
-/

namespace Libiscsi.Decode

open Bounded Unmarshall Outcome

section
variable (d : List UInt8)

/-! ## The walk -/

/-- The number of ports of the group at `i` that are whole in the data. -/
def wholePorts (i : Nat) : Nat := min (taskGetUint d 1 (i + 7)) ((d.length - (i + 8)) / 4)

/-- The group at `i`, the ports of which are at `ports` in the object. -/
def groupAt (i ports : Nat) : TargetPortGroup where
  byte0 := taskGetUint d 1 i
  flags := taskGetUint d 1 (i + 1)
  portGroup := taskGetUint d 2 (i + 2)
  statusCode := taskGetUint d 1 (i + 5)
  portCount := taskGetUint d 1 (i + 7)
  retrievedPortCount := wholePorts d i
  portsAt := ports
  ports := (List.range (wholePorts d i)).map fun k => uint d 2 (i + 8 + k * 4 + 2)

/-- The groups from `i` on are `groups`, with their ports one after the other from `ports` on. -/
inductive Walks : Nat → Nat → List TargetPortGroup → Prop where
  | done {i ports : Nat} : d.length < i + 8 → Walks i ports []
  | group {i ports : Nat} {groups : List TargetPortGroup} : i + 8 ≤ d.length →
      Walks (i + 8 + wholePorts d i * 4) (ports + 2 * wholePorts d i) groups →
      Walks i ports (groupAt d i ports :: groups)

/-- The number of ports of groups that were retrieved. -/
def retrieved (groups : List TargetPortGroup) : Nat :=
  (groups.map TargetPortGroup.retrievedPortCount).sum

/-- The two passes: the first one counts what the second one fills in, which is what the walk over
the data finds, with the ports of the groups one after the other behind the groups. -/
structure TwoPasses (counted : List TargetPortGroup) (rtpg : TargetPortGroups) : Prop where
  first_pass : portGroups d none d.length 0 4 = .ok counted
  same_ports : counted.map TargetPortGroup.ports = rtpg.groups.map TargetPortGroup.ports
  numGroups : rtpg.numGroups = rtpg.groups.length
  walks : Walks d 4 (8 + 16 * rtpg.numGroups) rtpg.groups
  allocated : rtpg.allocated = 8 + 16 * rtpg.numGroups + 2 * retrieved rtpg.groups
  within_groups : ∀ g ∈ rtpg.groups, 8 + 16 * rtpg.numGroups ≤ g.portsAt ∧
    g.portsAt + 2 * g.retrievedPortCount ≤ rtpg.allocated
  disjoint : rtpg.groups.Pairwise fun g g' => g.portsAt + 2 * g.retrievedPortCount ≤ g'.portsAt
  consecutive : rtpg.groups.IsChain fun g g' => g'.portsAt = g.portsAt + 2 * g.retrievedPortCount
  retrieved_le : ∀ g ∈ rtpg.groups, g.retrievedPortCount ≤ g.portCount ∧
    g.ports.length = g.retrievedPortCount

/-- The data is parsed in two passes; there is no list only without a header. -/
def GroupsParsed : Prop :=
  ∃ r, scsiReportTargetPortGroupsUnmarshal d = .ok r ∧ (r = none → d.length < 4) ∧
    ∀ rtpg, r = some rtpg → ∃ counted, TwoPasses d counted rtpg

end

/-! ## The walk lays out the ports -/

section
variable {d : List UInt8} {i ports : Nat} {groups : List TargetPortGroup}

@[simp] theorem length_ports_groupAt : (groupAt d i ports).ports.length = wholePorts d i := by
  simp [groupAt]

theorem retrieved_cons (g : TargetPortGroup) (groups : List TargetPortGroup) :
    retrieved (g :: groups) = g.retrievedPortCount + retrieved groups := rfl

/-- The ports of the groups of a walk lie where the walk is. -/
theorem Walks.bounds (h : Walks d i ports groups) :
    ∀ g ∈ groups, ports ≤ g.portsAt ∧
      g.portsAt + 2 * g.retrievedPortCount ≤ ports + 2 * retrieved groups := by
  induction h with
  | done => intro g hg; cases hg
  | @group i ports groups hle _ ih =>
    intro g hg
    rw [retrieved_cons]
    rcases List.mem_cons.1 hg with rfl | hg
    · change ports ≤ ports ∧ ports + 2 * wholePorts d i ≤ ports + 2 * (wholePorts d i + _)
      omega
    · have hih := ih g hg
      change ports ≤ _ ∧ _ ≤ ports + 2 * (wholePorts d i + _)
      omega

/-- The ports of the groups of a walk do not overlap. -/
theorem Walks.pairwise (h : Walks d i ports groups) :
    groups.Pairwise fun g g' => g.portsAt + 2 * g.retrievedPortCount ≤ g'.portsAt := by
  induction h with
  | done => exact .nil
  | group hle hrest ih => exact .cons (fun g hg => (hrest.bounds g hg).1) ih

/-- The ports of a group of a walk follow those of the group before it. -/
theorem Walks.chain (h : Walks d i ports groups) :
    groups.IsChain fun g g' => g'.portsAt = g.portsAt + 2 * g.retrievedPortCount := by
  induction h with
  | done => exact .nil
  | group hle hrest ih =>
    cases hrest with
    | done => exact .singleton _
    | group hle' hrest' => exact .cons_cons rfl ih

/-- A group of a walk has no more ports than it says. -/
theorem Walks.retrieved_le (h : Walks d i ports groups) :
    ∀ g ∈ groups, g.retrievedPortCount ≤ g.portCount ∧ g.ports.length = g.retrievedPortCount := by
  induction h with
  | done => intro g hg; cases hg
  | group hle hrest ih =>
    intro g hg
    rcases List.mem_cons.1 hg with rfl | hg
    · exact ⟨Nat.min_le_left _ _, length_ports_groupAt⟩
    · exact ih g hg

/-! ## The passes make the walk -/

/-- The ports that are counted are those that are whole. -/
theorem portsCount_eq :
    ∀ {left k : Nat}, i + k * 4 ≤ d.length →
      portsCount d i left k = k + min left ((d.length - i) / 4 - k)
  | 0, k, _ => by
    rw [portsCount, Nat.zero_min, Nat.add_zero]
  | left + 1, k, h => by
    unfold portsCount
    by_cases hle : i + (k + 1) * 4 ≤ d.length
    · rw [if_pos hle, portsCount_eq hle]
      omega
    · rw [if_neg hle]
      omega

theorem portsCount_wholePorts (h : i + 8 ≤ d.length) :
    portsCount d (i + 8) (taskGetUint d 1 (i + 7)) 0 = wholePorts d i := by
  rw [portsCount_eq (by omega)]
  unfold wholePorts
  omega

/-- The loop over the ports of a group: by induction on the turns that are left. -/
theorem groupPorts_eq {rtpg : Option (Nat × Nat)} (hd : d.length < 2 ^ 31) :
    ∀ {left k : Nat}, PortsFit d i left k →
      (∀ size ports, rtpg = some (size, ports) → ports + 2 * portsCount d i left k ≤ size) →
      groupPorts d rtpg i left k = .ok ((List.range' k (portsCount d i left k - k)).map fun k =>
        uint d 2 (i + k * 4 + 2))
  | 0, k, _, _ => by
    rw [portsCount, Nat.sub_self]
    rfl
  | left + 1, k, hfit, hroom => by
    unfold groupPorts
    unfold portsCount at hroom ⊢
    rw [offset_of_lt hfit.1, ok_bind]
    by_cases hle : i + (k + 1) * 4 ≤ d.length
    · have hbounds := portsCount_bounds d i left (k + 1)
      simp only [if_pos hle] at hroom ⊢
      have hstore : filledIn rtpg (fun ports => ports + 2 * k) 2 = .ok () := by
        cases rtpg with
        | none => rfl
        | some r =>
          have hroom := hroom r.1 r.2 rfl
          exact within_of_le (by simp only; omega)
      have hcount : portsCount d i left (k + 1) - k =
          (portsCount d i left (k + 1) - (k + 1)) + 1 := by
        omega
      rw [number_of_lt (by omega), ok_bind, hstore, ok_bind,
        groupPorts_eq hd (hfit.2 hle) hroom, ok_bind, hcount, List.range'_succ, List.map_cons]
    · simp only [if_neg hle]
      rw [Nat.sub_self]
      rfl

/-- The loop over the ports compares a position that is not an `int`. -/
theorem groupPorts_overflow :
    ∀ {left k : Nat}, ¬PortsFit d i left k → ∃ e, groupPorts d none i left k = .error e
  | 0, _, hfit => absurd trivial hfit
  | left + 1, k, hfit => by
    unfold groupPorts
    by_cases hint : i + (k + 1) * 4 < 2 ^ 31
    · unfold PortsFit at hfit
      rw [not_and, Classical.not_imp] at hfit
      obtain ⟨hle, hrest⟩ := hfit hint
      obtain ⟨e, he⟩ := groupPorts_overflow hrest
      refine ⟨e, ?_⟩
      rw [offset_of_lt hint, ok_bind, if_pos hle, number_of_lt (by omega), ok_bind, filledIn,
        ok_bind, he]
      rfl
    · refine ⟨.overflow, ?_⟩
      rw [offset, if_neg hint]
      rfl

/-- The groups from `i` on, with their ports from `ports` on, if they are filled in. -/
def groupsFrom (d : List UInt8) : Nat → Nat → Option Nat → List TargetPortGroup
  | 0, _, _ => []
  | fuel + 1, i, ports =>
    if d.length < i + 8 then []
    else groupAt d i (ports.getD 0) ::
      groupsFrom d fuel (i + 8 + wholePorts d i * 4) (ports.map (· + 2 * wholePorts d i))

/-- Where the ports are makes no difference to what they are. -/
theorem map_groupsFrom {α : Type} {f : TargetPortGroup → α}
    (hf : ∀ i ports ports', f (groupAt d i ports) = f (groupAt d i ports')) :
    ∀ {fuel i : Nat} {ports ports' : Option Nat},
      (groupsFrom d fuel i ports).map f = (groupsFrom d fuel i ports').map f
  | 0, _, _, _ => rfl
  | fuel + 1, i, ports, ports' => by
    unfold groupsFrom
    by_cases hend : d.length < i + 8
    · rw [if_pos hend, if_pos hend]
    · rw [if_neg hend, if_neg hend, List.map_cons, List.map_cons, hf i _ (ports'.getD 0),
        map_groupsFrom hf]

/-- With a turn for all eight bytes, the groups are those of the walk. -/
theorem walks_groupsFrom :
    ∀ {fuel i ports : Nat}, d.length < i + 8 * (fuel + 1) →
      Walks d i ports (groupsFrom d fuel i (some ports))
  | 0, i, ports, h => .done (by omega)
  | fuel + 1, i, ports, h => by
    unfold groupsFrom
    by_cases hend : d.length < i + 8
    · rw [if_pos hend]
      exact .done hend
    · rw [if_neg hend]
      exact .group (by omega) (walks_groupsFrom (by omega))

/-- The loop over the groups: by induction on the turns that are left. -/
theorem portGroups_eq (hd : d.length < 2 ^ 31) :
    ∀ {fuel n i : Nat} {rtpg : Option (Nat × Nat)}, GroupsFit d fuel i →
      (∀ size ports, rtpg = some (size, ports) →
        8 + 16 * (n + (groupsFrom d fuel i none).length) ≤ size ∧
          ports + 2 * retrieved (groupsFrom d fuel i none) ≤ size) →
      portGroups d rtpg fuel n i = .ok (groupsFrom d fuel i (rtpg.map Prod.snd))
  | 0, _, _, _, _, _ => rfl
  | fuel + 1, n, i, rtpg, hfit, hroom => by
    unfold portGroups
    unfold groupsFrom at hroom ⊢
    unfold GroupsFit at hfit
    by_cases hend : d.length < i + 8
    · simp only [if_pos hend]
    simp only [if_neg hend] at hroom ⊢
    obtain ⟨hports, hrest⟩ := hfit.resolve_left hend
    have hcount := portsCount_wholePorts (d := d) (i := i) (by omega)
    rw [hcount] at hrest
    have hstore : filledIn rtpg (fun _ => 8 + 16 * n) 16 = .ok () := by
      cases rtpg with
      | none => rfl
      | some r =>
        have hroom := (hroom r.1 r.2 rfl).1
        rw [List.length_cons] at hroom
        exact within_of_le (by simp only; omega)
    have hgroup := groupPorts_eq hd hports fun size ports hr => by
      have hroom := (hroom size ports hr).2
      rw [retrieved_cons] at hroom
      change ports + 2 * (wholePorts d i + _) ≤ size at hroom
      rw [hcount]
      omega
    rw [hcount, Nat.sub_zero, ← List.range_eq_range'] at hgroup
    have hmap : ((rtpg.map fun p => (p.1, p.2 + 2 * wholePorts d i)).map Prod.snd) =
        (rtpg.map Prod.snd).map (· + 2 * wholePorts d i) := by
      cases rtpg <;> rfl
    have hih := @portGroups_eq hd fuel (n + 1) (i + 8 + wholePorts d i * 4)
      (rtpg.map fun p => (p.1, p.2 + 2 * wholePorts d i)) hrest fun size ports hr => by
        cases rtpg with
        | none => cases hr
        | some r =>
          obtain ⟨rfl, rfl⟩ := Prod.mk.inj (Option.some.inj hr)
          have hroom := hroom r.1 r.2 rfl
          rw [List.length_cons, retrieved_cons] at hroom
          change _ ∧ r.2 + 2 * (wholePorts d i + retrieved _) ≤ r.1 at hroom
          have hsame : retrieved (groupsFrom d fuel (i + 8 + wholePorts d i * 4)
              (Option.map (fun x => x + 2 * wholePorts d i) none)) =
                retrieved (groupsFrom d fuel (i + 8 + wholePorts d i * 4) none) := rfl
          rw [hsame] at hroom
          refine ⟨?_, by omega⟩
          have := hroom.1
          simp only [Option.map_none] at this
          omega
    rw [hstore, ok_bind, hgroup, ok_bind]
    simp only [List.length_map, List.length_range]
    rw [hih, ok_bind, hmap]
    rfl

/-- A position overflows in the first pass. -/
theorem portGroups_overflow (hd : d.length < 2 ^ 31) :
    ∀ {fuel n i : Nat}, ¬GroupsFit d fuel i → ∃ e, portGroups d none fuel n i = .error e
  | 0, _, _, hfit => absurd trivial hfit
  | fuel + 1, n, i, hfit => by
    unfold portGroups
    unfold GroupsFit at hfit
    rw [not_or] at hfit
    obtain ⟨hend, hfit⟩ := hfit
    rw [if_neg hend]
    by_cases hports : PortsFit d (i + 8) (taskGetUint d 1 (i + 7)) 0
    · have hcount := portsCount_wholePorts (d := d) (i := i) (by omega)
      have hgroup := @groupPorts_eq d _ none hd _ _ hports (by simp)
      have hrest : ¬GroupsFit d fuel (i + 8 + wholePorts d i * 4) := by
        intro h
        exact hfit ⟨hports, by rw [hcount]; exact h⟩
      rw [hcount, Nat.sub_zero, ← List.range_eq_range'] at hgroup
      obtain ⟨e, he⟩ := portGroups_overflow hd (n := n + 1) hrest
      refine ⟨e, ?_⟩
      rw [filledIn, ok_bind, hgroup, ok_bind]
      simp only [List.length_map, List.length_range, Option.map_none]
      rw [he]
      rfl
    · obtain ⟨e, he⟩ := groupPorts_overflow hports
      refine ⟨e, ?_⟩
      rw [filledIn, ok_bind, he]
      rfl

/-! ## Both passes -/

/-- There is no more in a walk than the data has bytes. -/
theorem groupsFrom_bounds :
    ∀ {fuel i : Nat}, (groupsFrom d fuel i none).length ≤ fuel ∧
      retrieved (groupsFrom d fuel i none) ≤ 256 * fuel
  | 0, _ => ⟨le_refl _, le_refl _⟩
  | fuel + 1, i => by
    unfold groupsFrom
    by_cases hend : d.length < i + 8
    · rw [if_pos hend]
      exact ⟨Nat.zero_le _, Nat.zero_le _⟩
    · have hih := @groupsFrom_bounds fuel (i + 8 + wholePorts d i * 4)
      have hlt : taskGetUint d 1 (i + 7) < 256 := taskGetUint_lt d 1 (i + 7)
      have hwhole : wholePorts d i ≤ taskGetUint d 1 (i + 7) := Nat.min_le_left _ _
      rw [if_neg hend, List.length_cons, retrieved_cons, Option.map_none]
      change _ ∧ wholePorts d i + _ ≤ _
      omega

/-- What is returned for data that fits. -/
theorem reportTargetPortGroups_eq (hd : d.length < 2 ^ 31) (h4 : ¬d.length < 4)
    (hfit : GroupsFit d d.length 4) :
    scsiReportTargetPortGroupsUnmarshal d = .ok (some
      { allocated := 8 + 16 * (groupsFrom d d.length 4 none).length +
          2 * retrieved (groupsFrom d d.length 4 none)
        numGroups := (groupsFrom d d.length 4 none).length
        groups := groupsFrom d d.length 4
          (some (8 + 16 * (groupsFrom d d.length 4 none).length)) }) := by
  have hbounds := @groupsFrom_bounds d d.length 4
  have hfirst := @portGroups_eq d hd _ 0 _ none hfit (by simp)
  have hsecond := @portGroups_eq d hd _ 0 _
    (some (8 + 16 * (groupsFrom d d.length 4 none).length +
      2 * retrieved (groupsFrom d d.length 4 none),
      8 + 16 * (groupsFrom d d.length 4 none).length)) hfit fun size ports hr => by
        obtain ⟨rfl, rfl⟩ := Prod.mk.inj (Option.some.inj hr)
        omega
  unfold scsiReportTargetPortGroupsUnmarshal
  rw [if_neg h4, hfirst, ok_bind]
  simp only [Option.map_none]
  rw [scsiMalloc_of_nonneg (by omega) (by unfold retrieved at hbounds; omega), Int.toNat_natCast,
    within_of_le (by omega), ok_bind]
  unfold retrieved at hsecond
  rw [hsecond]
  rfl

/-- The object that is returned for data that fits was filled in two passes. -/
theorem twoPasses (hd : d.length < 2 ^ 31) (hfit : GroupsFit d d.length 4) :
    TwoPasses d (groupsFrom d d.length 4 none)
      { allocated := 8 + 16 * (groupsFrom d d.length 4 none).length +
          2 * retrieved (groupsFrom d d.length 4 none)
        numGroups := (groupsFrom d d.length 4 none).length
        groups := groupsFrom d d.length 4
          (some (8 + 16 * (groupsFrom d d.length 4 none).length)) } := by
  have hwalks := @walks_groupsFrom d d.length 4
    (8 + 16 * (groupsFrom d d.length 4 none).length) (by omega)
  have hlen : (groupsFrom d d.length 4 none).length = (groupsFrom d d.length 4
      (some (8 + 16 * (groupsFrom d d.length 4 none).length))).length := by
    have hmap := @map_groupsFrom d _ (fun _ => ()) (fun _ _ _ => rfl) d.length 4 none
      (some (8 + 16 * (groupsFrom d d.length 4 none).length))
    simpa using congrArg List.length hmap
  have hretrieved : retrieved (groupsFrom d d.length 4 none) = retrieved (groupsFrom d d.length 4
      (some (8 + 16 * (groupsFrom d d.length 4 none).length))) :=
    congrArg List.sum (map_groupsFrom fun _ _ _ => rfl)
  have hbounds := hwalks.bounds
  constructor
  · exact @portGroups_eq d hd _ 0 _ none hfit (by simp)
  · exact map_groupsFrom fun _ _ _ => rfl
  · exact hlen
  · exact hwalks
  · simp only [hretrieved]
  · intro g hg
    simp only [hretrieved]
    exact hbounds g hg
  · exact hwalks.pairwise
  · exact hwalks.chain
  · exact hwalks.retrieved_le

end

/-- **The data that is parsed in two passes** is the data in which no position overflows. -/
theorem groupsParsed_iff (d : Unmarshall.Datain) : GroupsParsed d.data ↔ PortGroupsFit d.data := by
  unfold PortGroupsFit
  by_cases h4 : d.data.length < 4
  · refine iff_of_true ⟨none, if_pos h4, fun _ => h4, fun rtpg hr => ?_⟩ (.inl h4)
    cases hr
  constructor
  · rintro ⟨r, hrun, -, -⟩
    refine .inr (by_contra fun hfit => ?_)
    obtain ⟨e, he⟩ := portGroups_overflow d.size_lt (n := 0) hfit
    unfold scsiReportTargetPortGroupsUnmarshal at hrun
    rw [if_neg h4, he] at hrun
    cases hrun
  · intro hfit
    have hfit := hfit.resolve_left h4
    refine ⟨_, reportTargetPortGroups_eq d.size_lt h4 hfit, fun hnone => ?_, fun rtpg hr => ?_⟩
    · cases hnone
    · obtain rfl := Option.some.inj hr
      exact ⟨_, twoPasses d.size_lt hfit⟩

/-! ## A position that overflows -/

/-- The position behind a port that is looked at is an `int`. -/
theorem lt_of_portsFit {d : List UInt8} {i m : Nat} :
    ∀ {left k : Nat}, PortsFit d i left k → k ≤ m → m < k + left → i + m * 4 ≤ d.length →
      i + (m + 1) * 4 < 2 ^ 31
  | 0, _, _, hk, hm, _ => absurd hm (by omega)
  | left + 1, k, hfit, hk, hm, hle => by
    by_cases hkm : k = m
    · exact hkm ▸ hfit.1
    · exact lt_of_portsFit (hfit.2 (by omega)) (by omega) (by omega) hle

/-- Data of `2 ^ 31 - 1` bytes, all of them 255. -/
def fullData : Unmarshall.Datain where
  data := List.replicate (2 ^ 31 - 1) 0xff
  size_lt := by rw [List.length_replicate]; decide

theorem length_fullData : fullData.data.length = 2 ^ 31 - 1 := List.length_replicate

theorem byte_fullData {i : Nat} (h : i < 2 ^ 31 - 1) : taskGetUint fullData.data 1 i = 255 :=
  uint_one (b := 0xff) (by
    rw [fullData, List.getElem?_replicate]
    exact if_pos h)

/-- The groups of full data have 255 ports, except for the last one, in which the position behind
the port 221 is `2 ^ 31`. By induction on the groups before the last one. -/
theorem not_groupsFit_fullData :
    ∀ {r fuel : Nat}, r < fuel → r ≤ 2088991 →
      ¬GroupsFit fullData.data fuel (4 + 1028 * (2088991 - r))
  | r, 0, hr, _, _ => absurd hr (Nat.not_lt_zero r)
  | 0, fuel + 1, _, _, hfit => by
    have hlen := length_fullData
    unfold GroupsFit at hfit
    simp only at hfit
    rw [byte_fullData (by omega)] at hfit
    obtain ⟨hports, -⟩ := hfit.resolve_left (by omega)
    have hlt := lt_of_portsFit (m := 221) hports (by omega) (by omega) (by omega)
    omega
  | r + 1, fuel + 1, hr, hle, hfit => by
    have hlen := length_fullData
    have hbyte := byte_fullData (i := 4 + 1028 * (2088991 - (r + 1)) + 7) (by omega)
    have hcount := portsCount_wholePorts (d := fullData.data)
      (i := 4 + 1028 * (2088991 - (r + 1))) (by omega)
    have hwhole : wholePorts fullData.data (4 + 1028 * (2088991 - (r + 1))) = 255 := by
      unfold wholePorts
      omega
    unfold GroupsFit at hfit
    simp only at hfit
    obtain ⟨-, hrest⟩ := hfit.resolve_left (by omega)
    rw [hcount, hwhole] at hrest
    have hnext : 4 + 1028 * (2088991 - (r + 1)) + 8 + 255 * 4 = 4 + 1028 * (2088991 - r) := by
      omega
    rw [hnext] at hrest
    exact not_groupsFit_fullData (by omega) (by omega) hrest

/-- In data of `2 ^ 31 - 1` bytes, the position behind the last port overflows. -/
theorem groups_overflow : ¬∀ d : Unmarshall.Datain, GroupsParsed d.data := by
  intro h
  obtain ⟨r, hrun, -, -⟩ := h fullData
  have hlen := length_fullData
  have hfit : ¬GroupsFit fullData.data fullData.data.length 4 := by
    have hlast := @not_groupsFit_fullData 2088991 fullData.data.length (by omega)
      le_rfl
    exact hlast
  obtain ⟨e, he⟩ := portGroups_overflow fullData.size_lt (n := 0) hfit
  unfold scsiReportTargetPortGroupsUnmarshal at hrun
  rw [if_neg (by omega), he] at hrun
  cases hrun

end Libiscsi.Decode
