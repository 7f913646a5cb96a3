import Libiscsi.Discovery

/-!
# What discovery finds

A SendTargets response lists targets, each with its addresses (`DiscoveryTarget.encode`). The loop
of `iscsi_process_text_reply` keeps what it has read so far as the list of nodes (`Read`), and the
blocks of these nodes are what was allocated and not yet released (`AllocState.Owes`).
`textReply_correct` puts this together: the list is read back, anything else is refused, and no
block is lost.
-/

namespace Libiscsi

open CString

/-! ## The encoding -/

/-- A target and its addresses. -/
structure DiscoveryTarget where
  name : CStr
  addresses : List CStr
  name_free : 0 ∉ name
  addresses_free : ∀ a ∈ addresses, 0 ∉ a

/-- `TargetAddress=` with an address, as a string of the data. -/
def encodeAddress (address : CStr) : List UInt8 := targetAddressKey ++ address ++ [0]

namespace DiscoveryTarget

/-- The strings of a target. -/
def encode (t : DiscoveryTarget) : List UInt8 :=
  targetNameKey ++ t.name ++ [0] ++ t.addresses.flatMap encodeAddress

/-- The node of a target: the last address comes first. -/
def node (t : DiscoveryTarget) : IscsiDiscoveryAddress where
  targetName := t.name
  portals := (t.addresses.map fun a => ⟨some a⟩).reverse

/-- The copy of a target: the addresses are in order. -/
def copied (t : DiscoveryTarget) : IscsiDiscoveryAddress where
  targetName := t.name
  portals := t.addresses.map fun a => ⟨some a⟩

end DiscoveryTarget

/-- The strings of the targets. -/
def encodeTargets (ts : List DiscoveryTarget) : List UInt8 := ts.flatMap (·.encode)

/-- The nodes of the targets: the last one comes first. -/
def targetNodes (ts : List DiscoveryTarget) : List IscsiDiscoveryAddress :=
  (ts.map (·.node)).reverse

/-- The data are the strings of the targets, up to their end or to an empty string. -/
def Encodes (data : List UInt8) (ts : List DiscoveryTarget) : Prop :=
  data = encodeTargets ts ∨ ∃ rest, data = encodeTargets ts ++ 0 :: rest

/-- Any number of zeros may follow. -/
theorem encodes_padded (ts : List DiscoveryTarget) (n : Nat) :
    Encodes (encodeTargets ts ++ List.replicate n 0) ts := by
  cases n with
  | zero => exact .inl (by simp)
  | succ n => exact .inr ⟨List.replicate n 0, by rw [List.replicate_succ]⟩

/-- **The copy has the original order**, of the targets and of the addresses of each. -/
theorem iscsiDiscoveryCb_targetNodes (ts : List DiscoveryTarget) :
    iscsiDiscoveryCb (targetNodes ts) = ts.map (·.copied) := by
  have hrev : ∀ l : List IscsiTargetPortal,
      l.foldl (fun portals po => po :: portals) [] = l.reverse := fun l => by
    rw [List.foldl_flip_cons_eq_append', List.append_nil]
  have hfold : ∀ (l : List DiscoveryTarget) (acc : List IscsiDiscoveryAddress),
      (l.map (·.node)).foldl (fun dahead da =>
        ⟨da.targetName, da.portals.foldl (fun portals po => po :: portals) []⟩ :: dahead) acc =
        (l.map (·.copied)).reverse ++ acc := by
    intro l
    induction l with
    | nil => intro acc; rfl
    | cons t l ih =>
      intro acc
      rw [List.map_cons, List.foldl_cons, ih, hrev, List.map_cons, List.reverse_cons,
        List.append_assoc]
      simp [DiscoveryTarget.node, DiscoveryTarget.copied]
  have hnodes : targetNodes ts = (ts.reverse.map (·.node)) := by
    rw [targetNodes, List.map_reverse]
  rw [iscsiDiscoveryCb, hnodes, hfold, List.append_nil, List.map_reverse, List.reverse_reverse]

/-! ## The blocks -/

/-- The blocks of a portal. -/
def IscsiTargetPortal.blocks (p : IscsiTargetPortal) : Nat := if p.portal.isSome then 2 else 1

/-- The blocks of a target. -/
def IscsiDiscoveryAddress.blocks (a : IscsiDiscoveryAddress) : Nat :=
  2 + (a.portals.map (·.blocks)).sum

namespace AllocState

/-- Since `h₀`, `n` blocks were allocated and not released. -/
def Owes (h₀ h : AllocState) (n : Nat) : Prop :=
  h.mallocs + h₀.frees = h₀.mallocs + h.frees + n

variable {h₀ h : AllocState} {n : Nat}

theorem freePortals_eq (h : AllocState) (portals : List IscsiTargetPortal) :
    h.freePortals portals = { h with frees := h.frees + (portals.map (·.blocks)).sum } := by
  induction portals generalizing h with
  | nil => rfl
  | cons p portals ih =>
    rw [freePortals, ih, List.map_cons, List.sum_cons, IscsiTargetPortal.blocks]
    split <;> simp only [free, AllocState.mk.injEq, true_and] <;> omega

theorem freeDiscoveryAddresses_eq (h : AllocState) (addresses : List IscsiDiscoveryAddress) :
    h.freeDiscoveryAddresses addresses =
      { h with frees := h.frees + (addresses.map (·.blocks)).sum } := by
  induction addresses generalizing h with
  | nil => rfl
  | cons a addresses ih =>
    rw [freeDiscoveryAddresses, ih, freePortals_eq, List.map_cons, List.sum_cons,
      IscsiDiscoveryAddress.blocks]
    simp only [free, AllocState.mk.injEq, true_and]
    omega

/-- An allocation that succeeds adds a block. -/
theorem Owes.alloc_true (ho : Owes h₀ h n) (hok : h.alloc.1 = true) :
    Owes h₀ h.alloc.2 (n + 1) := by
  unfold alloc at hok ⊢
  split at hok
  · rename_i hhead
    rw [if_pos hhead]
    unfold Owes at ho ⊢
    dsimp only
    omega
  · cases hok

/-- An allocation that fails adds none. -/
theorem Owes.alloc_false (ho : Owes h₀ h n) (hok : h.alloc.1 = false) : Owes h₀ h.alloc.2 n := by
  unfold alloc at hok ⊢
  split at hok
  · cases hok
  · rename_i hhead
    rw [if_neg hhead]
    exact ho

/-- A block is released. -/
theorem Owes.free (ho : Owes h₀ h (n + 1)) : Owes h₀ h.free n := by
  unfold Owes AllocState.free at *
  dsimp only
  omega

/-- What was allocated is released. -/
theorem Owes.freed {targets : List IscsiDiscoveryAddress}
    (ho : Owes h₀ h (targets.map (·.blocks)).sum) :
    Owes h₀ (h.freeDiscoveryAddresses targets) 0 := by
  rw [freeDiscoveryAddresses_eq]
  unfold Owes at ho ⊢
  dsimp only
  omega

/-- Without failures to come, allocations succeed. -/
def Plenty (h : AllocState) : Prop := ∀ ok ∈ h.allocs, ok = true

theorem Plenty.alloc (hp : h.Plenty) : h.alloc.1 = true ∧ h.alloc.2.Plenty := by
  have hhead : h.allocs.headD true = true := by
    unfold Plenty at hp
    cases hallocs : h.allocs with
    | nil => rfl
    | cons ok allocs => exact hp ok (by simp [hallocs])
  unfold AllocState.alloc
  rw [if_pos hhead]
  exact ⟨rfl, fun ok hok => hp ok (List.mem_of_mem_tail hok)⟩

end AllocState

/-! ## One string -/

section
variable {pdu : Pdu} {h h' h₀ : AllocState} {targets targets' : List IscsiDiscoveryAddress}
  {s : CStr} {consumed : List UInt8}

/-- The targets are those whose strings were read. -/
def Read (targets : List IscsiDiscoveryAddress) (consumed : List UInt8) : Prop :=
  ∃ ts, targets = targetNodes ts ∧ consumed = encodeTargets ts

/-- Blocks are owed for the targets. -/
abbrev OwesFor (h₀ h : AllocState) (targets : List IscsiDiscoveryAddress) : Prop :=
  AllocState.Owes h₀ h (targets.map (·.blocks)).sum

/-- An outcome that reports the error once and has released everything. -/
structure Refuses (pdu : Pdu) (h₀ : AllocState) (o : TextOutcome) : Prop where
  calls : o.calls = discoveryCalls pdu scsiStatusError []
  heap : AllocState.Owes h₀ o.heap 0

theorem refuses_textError (ho : OwesFor h₀ h targets) :
    Refuses pdu h₀ (textError pdu h targets) :=
  ⟨rfl, ho.freed⟩

/-- What a string leaves behind: an error, or one more target or portal. -/
theorem addTargetName_spec (pdu : Pdu) (ho : OwesFor h₀ h targets) (name : CStr) :
    (∃ o, addTargetName pdu h targets name = .error o ∧ Refuses pdu h₀ o) ∨
      ∃ h', addTargetName pdu h targets name = .ok (h', ⟨name, []⟩ :: targets) ∧
        OwesFor h₀ h' (⟨name, []⟩ :: targets) := by
  unfold addTargetName
  rcases hm : h.alloc with ⟨_ | _, h₁⟩
  · have ho₁ := ho.alloc_false (by rw [hm])
    rw [hm] at ho₁
    exact .inl ⟨_, rfl, refuses_textError ho₁⟩
  · have ho₁ := ho.alloc_true (by rw [hm])
    rw [hm] at ho₁
    dsimp only at ho₁ ⊢
    rcases hm' : h₁.alloc with ⟨_ | _, h₂⟩
    · have ho₂ := ho₁.alloc_false (by rw [hm'])
      rw [hm'] at ho₂
      exact .inl ⟨_, rfl, refuses_textError ho₂.free⟩
    · have ho₂ := ho₁.alloc_true (by rw [hm'])
      rw [hm'] at ho₂
      refine .inr ⟨h₂, rfl, ?_⟩
      unfold OwesFor AllocState.Owes at *
      simp only [List.map_cons, List.sum_cons, IscsiDiscoveryAddress.blocks, List.map_nil,
        List.sum_nil] at ho₂ ⊢
      omega

theorem addTargetAddress_spec (pdu : Pdu) (ho : OwesFor h₀ h targets) (address : CStr) :
    (∃ o, addTargetAddress pdu h targets address = .error o ∧ Refuses pdu h₀ o) ∨
      ∃ h' target rest, targets = target :: rest ∧
        addTargetAddress pdu h targets address =
          .ok (h', { target with portals := ⟨some address⟩ :: target.portals } :: rest) ∧
        OwesFor h₀ h' ({ target with portals := ⟨some address⟩ :: target.portals } :: rest) := by
  unfold addTargetAddress
  rcases targets with _ | ⟨target, rest⟩
  · exact .inl ⟨_, rfl, refuses_textError ho⟩
  · dsimp only
    rcases hm : h.alloc with ⟨_ | _, h₁⟩
    · have ho₁ := ho.alloc_false (by rw [hm])
      rw [hm] at ho₁
      exact .inl ⟨_, rfl, refuses_textError ho₁⟩
    · have ho₁ := ho.alloc_true (by rw [hm])
      rw [hm] at ho₁
      dsimp only at ho₁ ⊢
      rcases hm' : h₁.alloc with ⟨_ | _, h₂⟩
      · have ho₂ := ho₁.alloc_false (by rw [hm'])
        rw [hm'] at ho₂
        refine .inl ⟨_, rfl, refuses_textError ?_⟩
        unfold OwesFor AllocState.Owes at *
        simp only [List.map_cons, List.sum_cons, IscsiDiscoveryAddress.blocks,
          IscsiTargetPortal.blocks] at ho₂ ⊢
        simp only [Option.isSome_none, Bool.false_eq_true, if_false]
        omega
      · have ho₂ := ho₁.alloc_true (by rw [hm'])
        rw [hm'] at ho₂
        refine .inr ⟨h₂, target, rest, rfl, rfl, ?_⟩
        unfold OwesFor AllocState.Owes at *
        simp only [List.map_cons, List.sum_cons, IscsiDiscoveryAddress.blocks,
          IscsiTargetPortal.blocks] at ho₂ ⊢
        simp only [Option.isSome_some, if_true]
        omega

/-- A target without addresses is read. -/
theorem Read.targetName (hr : Read targets consumed) {name : CStr} (hname : 0 ∉ name) :
    Read (⟨name, []⟩ :: targets) (consumed ++ (targetNameKey ++ name ++ [0])) := by
  obtain ⟨ts, rfl, rfl⟩ := hr
  refine ⟨ts ++ [⟨name, [], hname, by simp⟩], ?_, ?_⟩
  · simp [targetNodes, DiscoveryTarget.node]
  · simp [encodeTargets, DiscoveryTarget.encode]

/-- An address of the last target is read. -/
theorem Read.targetAddress {target : IscsiDiscoveryAddress} {rest : List IscsiDiscoveryAddress}
    (hr : Read (target :: rest) consumed) {address : CStr} (haddress : 0 ∉ address) :
    Read ({ target with portals := ⟨some address⟩ :: target.portals } :: rest)
      (consumed ++ encodeAddress address) := by
  obtain ⟨ts, hts, rfl⟩ := hr
  rcases List.eq_nil_or_concat ts with rfl | ⟨ts, t, rfl⟩
  · cases hts
  · simp only [targetNodes, List.concat_eq_append, List.map_append, List.map_cons, List.map_nil,
      List.reverse_append, List.reverse_cons, List.reverse_nil, List.nil_append, List.cons_append,
      List.cons.injEq] at hts
    obtain ⟨rfl, rfl⟩ := hts
    have hfree : ∀ a ∈ t.addresses ++ [address], 0 ∉ a := fun a ha => by
      rcases List.mem_append.1 ha with ha | ha
      · exact t.addresses_free a ha
      · rwa [List.mem_singleton.1 ha]
    refine ⟨ts ++ [⟨t.name, t.addresses ++ [address], t.name_free, hfree⟩], ?_, ?_⟩
    · simp [targetNodes, DiscoveryTarget.node]
    · simp [encodeTargets, DiscoveryTarget.encode]

/-- A key and what follows it. -/
theorem isPrefixOf_split {key : CStr} (hkey : key.isPrefixOf s = true) :
    s = key ++ s.drop key.length := by
  obtain ⟨t, rfl⟩ := List.isPrefixOf_iff_prefix.1 hkey
  rw [List.drop_left]

/-- **One string** is refused, or read. -/
theorem textString_spec (pdu : Pdu) (ho : OwesFor h₀ h targets) (hr : Read targets consumed)
    (hs : 0 ∉ s) :
    (∃ o, textString pdu h targets s = .error o ∧ Refuses pdu h₀ o) ∨
      ∃ h' targets', textString pdu h targets s = .ok (h', targets') ∧ OwesFor h₀ h' targets' ∧
        Read targets' (consumed ++ (s ++ [0])) := by
  have hdrop : ∀ n, 0 ∉ s.drop n := fun n hmem => hs (List.mem_of_mem_drop hmem)
  unfold textString
  split
  · rename_i hkey
    rcases addTargetName_spec pdu ho (s.drop 11) with herr | ⟨h', hok, ho'⟩
    · exact .inl herr
    · refine .inr ⟨h', _, hok, ho', ?_⟩
      have hread := hr.targetName (hdrop 11)
      rwa [← show s = targetNameKey ++ s.drop 11 from isPrefixOf_split hkey] at hread
  · split
    · rename_i hkey
      rcases addTargetAddress_spec pdu ho (s.drop 14) with
        herr | ⟨h', target, rest, rfl, hok, ho'⟩
      · exact .inl herr
      · refine .inr ⟨h', _, hok, ho', ?_⟩
        have hread := hr.targetAddress (hdrop 14)
        rwa [encodeAddress, ← show s = targetAddressKey ++ s.drop 14 from isPrefixOf_split hkey]
          at hread
    · exact .inl ⟨_, rfl, refuses_textError ho⟩

/-! ## The loop -/

/-- An outcome that hands on the targets once and has released everything. -/
structure Accepts (pdu : Pdu) (h₀ : AllocState) (ts : List DiscoveryTarget) (o : TextOutcome) :
    Prop where
  calls : o.calls = discoveryCalls pdu scsiStatusGood (targetNodes ts)
  heap : AllocState.Owes h₀ o.heap 0

/-- **Any data** are refused, or are the strings of the targets that are handed on. -/
theorem textLoop_spec (pdu : Pdu) (h₀ : AllocState) : ∀ {fuel : Nat} (h : AllocState)
    (targets : List IscsiDiscoveryAddress) {consumed data : List UInt8}, data.length < fuel →
    OwesFor h₀ h targets → Read targets consumed → ∃ o, textLoop pdu fuel h targets data = .ok o ∧
      (Refuses pdu h₀ o ∨ ∃ ts, Encodes (consumed ++ data) ts ∧ Accepts pdu h₀ ts o)
  | 0, _, _, _, _, hfuel, _, _ => absurd hfuel (by omega)
  | fuel + 1, h, targets, consumed, data, hfuel, ho, hr => by
    rw [textLoop]
    split
    · rename_i hnil
      obtain ⟨ts, rfl, rfl⟩ := hr
      exact ⟨_, rfl, .inr ⟨ts, .inl (by rw [hnil, List.append_nil]), rfl, ho.freed⟩⟩
    · rename_i hnil
      dsimp only
      split
      · exact ⟨_, rfl, .inl (refuses_textError ho)⟩
      · rename_i hlen
        have hsplit := eq_first_append hlen
        split
        · rename_i hempty
          obtain ⟨ts, rfl, rfl⟩ := hr
          rw [hempty, List.nil_append] at hsplit
          exact ⟨_, rfl, .inr ⟨ts, .inr ⟨_, by rw [hsplit]⟩, rfl, ho.freed⟩⟩
        · rcases textString_spec pdu ho hr (zero_notMem_first data) with
            ⟨o, herr, hrefuse⟩ | ⟨h', targets', hok, ho', hr'⟩
          · rw [herr]
            exact ⟨o, rfl, .inl hrefuse⟩
          · rw [hok]
            have hless : (data.drop ((first data).length + 1)).length < fuel := by
              have := List.length_pos_iff.2 hnil
              rw [List.length_drop]
              omega
            obtain ⟨o, hloop, hout⟩ := textLoop_spec pdu h₀ _ _ hless ho' hr'
            refine ⟨o, hloop, ?_⟩
            rwa [List.append_assoc, List.append_assoc, List.singleton_append, ← hsplit] at hout

/-- The loop goes on with what is left of the data. -/
def Continues (pdu : Pdu) (h : AllocState) (targets : List IscsiDiscoveryAddress)
    (data : List UInt8) (h' : AllocState) (targets' : List IscsiDiscoveryAddress)
    (data' : List UInt8) : Prop :=
  ∀ fuel, data.length < fuel → ∃ fuel', data'.length < fuel' ∧
    textLoop pdu fuel h targets data = textLoop pdu fuel' h' targets' data'

theorem Continues.trans {h'' : AllocState} {targets'' : List IscsiDiscoveryAddress}
    {data data' data'' : List UInt8} (hxy : Continues pdu h targets data h' targets' data')
    (hyz : Continues pdu h' targets' data' h'' targets'' data'') :
    Continues pdu h targets data h'' targets'' data'' := fun fuel hfuel => by
  obtain ⟨fuel', hfuel', heq⟩ := hxy fuel hfuel
  obtain ⟨fuel'', hfuel'', heq'⟩ := hyz fuel' hfuel'
  exact ⟨fuel'', hfuel'', heq.trans heq'⟩

/-- A string that is read. -/
theorem continues_string {rest : List UInt8} (hs : 0 ∉ s) (hne : s ≠ [])
    (hok : textString pdu h targets s = .ok (h', targets')) :
    Continues pdu h targets (s ++ 0 :: rest) h' targets' rest := fun fuel hfuel => by
  rw [List.length_append, List.length_cons] at hfuel
  obtain ⟨fuel, rfl⟩ : ∃ k, fuel = k + 1 := ⟨fuel - 1, by omega⟩
  refine ⟨fuel, by omega, ?_⟩
  rw [textLoop, if_neg (by simp)]
  dsimp only
  rw [first_append hs, if_neg (by simp), if_neg hne, hok, drop_append]

/-- Without failures a target is read. -/
theorem continues_targetName (pdu : Pdu) (targets : List IscsiDiscoveryAddress) (hp : h.Plenty)
    {name : CStr} (hname : 0 ∉ name)
    (rest : List UInt8) : ∃ h' : AllocState, h'.Plenty ∧
      Continues pdu h targets (targetNameKey ++ name ++ 0 :: rest) h' (⟨name, []⟩ :: targets)
        rest := by
  obtain ⟨hok, hp₁⟩ := hp.alloc
  obtain ⟨hok₁, hp₂⟩ := hp₁.alloc
  refine ⟨_, hp₂, continues_string ?_ ?_ ?_⟩
  · rw [List.mem_append]
    rintro (hc | hc)
    · exact absurd hc (by decide)
    · exact hname hc
  · intro hc
    exact absurd (List.append_eq_nil_iff.1 hc).1 (by decide)
  · have hkey : targetNameKey.isPrefixOf (targetNameKey ++ name) = true :=
      List.isPrefixOf_iff_prefix.2 (List.prefix_append ..)
    have hdrop : (targetNameKey ++ name).drop targetNameKey.length = name := List.drop_left ..
    rw [show targetNameKey.length = 11 from rfl] at hdrop
    rw [textString, if_pos hkey, hdrop, addTargetName]
    dsimp only
    rw [hok, if_neg (by decide), hok₁, if_neg (by decide)]

/-- Without failures an address is read. -/
theorem continues_targetAddress (pdu : Pdu) (targets : List IscsiDiscoveryAddress)
    (target : IscsiDiscoveryAddress) (hp : h.Plenty) {address : CStr} (haddress : 0 ∉ address)
    (rest : List UInt8) :
    ∃ h' : AllocState, h'.Plenty ∧
      Continues pdu h (target :: targets) (encodeAddress address ++ rest) h'
        ({ target with portals := ⟨some address⟩ :: target.portals } :: targets) rest := by
  obtain ⟨hok, hp₁⟩ := hp.alloc
  obtain ⟨hok₁, hp₂⟩ := hp₁.alloc
  refine ⟨_, hp₂, ?_⟩
  rw [encodeAddress, List.append_assoc, List.singleton_append]
  refine continues_string ?_ ?_ ?_
  · rw [List.mem_append]
    rintro (hc | hc)
    · exact absurd hc (by decide)
    · exact haddress hc
  · intro hc
    exact absurd (List.append_eq_nil_iff.1 hc).1 (by decide)
  · have hname : ¬targetNameKey.isPrefixOf (targetAddressKey ++ address) = true := by
      rw [List.isPrefixOf_iff_prefix]
      rintro ⟨t, ht⟩
      have htake := congrArg (List.take 11) ht
      rw [List.take_append_of_le_length (by decide), List.take_append_of_le_length (by decide)]
        at htake
      exact absurd htake (by decide)
    have hkey : targetAddressKey.isPrefixOf (targetAddressKey ++ address) = true :=
      List.isPrefixOf_iff_prefix.2 (List.prefix_append ..)
    have hdrop : (targetAddressKey ++ address).drop targetAddressKey.length = address :=
      List.drop_left ..
    rw [show targetAddressKey.length = 14 from rfl] at hdrop
    rw [textString, if_neg hname, if_pos hkey, hdrop, addTargetAddress]
    dsimp only
    rw [hok, if_neg (by decide), hok₁, if_neg (by decide)]

/-- Without failures the addresses of a target are read. -/
theorem continues_addresses (pdu : Pdu) (targets : List IscsiDiscoveryAddress) :
    ∀ {addresses : List CStr} {h : AllocState} (target : IscsiDiscoveryAddress), h.Plenty →
    (∀ a ∈ addresses, 0 ∉ a) → ∀ rest : List UInt8, ∃ h' : AllocState, h'.Plenty ∧
      Continues pdu h (target :: targets) (addresses.flatMap encodeAddress ++ rest) h'
        ({ target with portals := (addresses.map fun a => ⟨some a⟩).reverse ++ target.portals } ::
          targets) rest
  | [], h, target, hp, _, rest => ⟨h, hp, fun fuel hfuel => ⟨fuel, hfuel, rfl⟩⟩
  | a :: addresses, h, target, hp, hfree, rest => by
    obtain ⟨h₁, hp₁, hstep⟩ := continues_targetAddress pdu targets target hp
      (hfree a (by simp)) (addresses.flatMap encodeAddress ++ rest)
    obtain ⟨h₂, hp₂, hrest⟩ := continues_addresses pdu targets
      { target with portals := ⟨some a⟩ :: target.portals } hp₁
      (fun b hb => hfree b (List.mem_cons_of_mem a hb)) rest
    refine ⟨h₂, hp₂, ?_⟩
    rw [List.flatMap_cons, List.append_assoc, List.map_cons, List.reverse_cons,
      List.append_assoc, List.singleton_append]
    exact hstep.trans hrest

/-- Without failures the targets are read. -/
theorem continues_targets (pdu : Pdu) : ∀ (ts : List DiscoveryTarget) {h : AllocState}
    (targets : List IscsiDiscoveryAddress), h.Plenty → ∀ rest : List UInt8,
    ∃ h' : AllocState, h'.Plenty ∧
      Continues pdu h targets (encodeTargets ts ++ rest) h' (targetNodes ts ++ targets) rest
  | [], h, _, hp, _ => ⟨h, hp, fun fuel hfuel => ⟨fuel, hfuel, rfl⟩⟩
  | t :: ts, h, targets, hp, rest => by
    obtain ⟨h₁, hp₁, hname⟩ := continues_targetName pdu targets hp
      t.name_free (t.addresses.flatMap encodeAddress ++ (encodeTargets ts ++ rest))
    obtain ⟨h₂, hp₂, haddresses⟩ := continues_addresses pdu targets
      ⟨t.name, []⟩ hp₁ t.addresses_free (encodeTargets ts ++ rest)
    obtain ⟨h₃, hp₃, hrest⟩ := continues_targets pdu ts (t.node :: targets) hp₂
      rest
    refine ⟨h₃, hp₃, ?_⟩
    have hdata : encodeTargets (t :: ts) ++ rest = targetNameKey ++ t.name ++
        0 :: (t.addresses.flatMap encodeAddress ++ (encodeTargets ts ++ rest)) := by
      simp [encodeTargets, DiscoveryTarget.encode]
    have hnodes : targetNodes (t :: ts) ++ targets = targetNodes ts ++ t.node :: targets := by
      simp [targetNodes]
    rw [List.append_nil] at haddresses
    rw [hdata, hnodes]
    exact (hname.trans haddresses).trans hrest

/-- **The strings of targets are read**, if no allocation fails. -/
theorem textLoop_encodes (pdu : Pdu) {ts : List DiscoveryTarget} {data : List UInt8}
    (hp : h.Plenty) (henc : Encodes data ts) :
    ∃ h', textLoop pdu (data.length + 1) h [] data =
      .ok (textDone pdu h' (targetNodes ts)) := by
  obtain ⟨rest, hrest, rfl⟩ : ∃ rest : List UInt8, (rest = [] ∨ ∃ tail, rest = 0 :: tail) ∧
      data = encodeTargets ts ++ rest := by
    rcases henc with rfl | ⟨rest, rfl⟩
    · exact ⟨[], .inl rfl, (List.append_nil _).symm⟩
    · exact ⟨0 :: rest, .inr ⟨rest, rfl⟩, rfl⟩
  obtain ⟨h', _, hcont⟩ := continues_targets pdu ts [] hp rest
  obtain ⟨fuel, hfuel, hloop⟩ := hcont _ (Nat.lt_succ_self _)
  obtain ⟨fuel, rfl⟩ : ∃ k, fuel = k + 1 := ⟨fuel - 1, by omega⟩
  refine ⟨h', hloop.trans ?_⟩
  rw [List.append_nil, textLoop]
  rcases hrest with rfl | ⟨tail, rfl⟩
  · rw [if_pos rfl]
  · rw [if_neg (by simp)]
    dsimp only
    rw [show first (0 :: tail) = [] from rfl, if_neg (by simp), if_pos rfl]

end

/-! ## The result -/

/-- **SendTargets is inverted.** Data that encode targets give the callback these targets, once and
with status GOOD, if no allocation fails, and the copy of the synchronous call has their order. Data
that encode no targets give it an error. In any case it is called once, and as many blocks are
released as were allocated. -/
theorem textReply_correct (pdu : Pdu) (cb : Callback) (inPdu : InPdu) (h : AllocState) :
    ∃ o, iscsiProcessTextReply { pdu with callback := some cb } h inPdu = .ok o ∧
      (∀ ts, inPdu.flags = iscsiPduTextFinal → h.Plenty → Encodes inPdu.payload ts →
        o.calls = [⟨cb, scsiStatusGood, targetNodes ts, pdu.privateData⟩] ∧
          iscsiDiscoveryCb (targetNodes ts) = ts.map (·.copied)) ∧
      ((¬∃ ts, Encodes inPdu.payload ts) →
        o.calls = [⟨cb, scsiStatusError, [], pdu.privateData⟩]) ∧
      o.calls.length = 1 ∧ o.heap.mallocs + h.frees = h.mallocs + o.heap.frees := by
  unfold iscsiProcessTextReply
  split
  · rename_i hflags
    exact ⟨_, rfl, fun _ hf => absurd hf hflags, fun _ => rfl, rfl, rfl⟩
  · obtain ⟨o, hloop, hout⟩ := textLoop_spec { pdu with callback := some cb } h h []
      (Nat.lt_succ_self inPdu.payload.length) rfl ⟨[], rfl, rfl⟩
    refine ⟨o, hloop, fun ts _ hp henc => ?_, fun hnone => ?_, ?_, ?_⟩
    · obtain ⟨h', hdone⟩ := textLoop_encodes { pdu with callback := some cb } hp henc
      obtain rfl := Except.ok.inj (hloop.symm.trans hdone)
      exact ⟨rfl, iscsiDiscoveryCb_targetNodes ts⟩
    · rcases hout with hrefuse | ⟨ts, henc, _⟩
      · exact hrefuse.calls
      · exact absurd ⟨ts, henc⟩ hnone
    · rcases hout with hrefuse | ⟨ts, _, haccept⟩
      · rw [hrefuse.calls]
        rfl
      · rw [haccept.calls]
        rfl
    · rcases hout with hrefuse | ⟨ts, _, haccept⟩
      · exact hrefuse.heap
      · exact haccept.heap

/-- A target with one address. -/
def oneTarget : DiscoveryTarget where
  name := ofString "iqn.a"
  addresses := [ofString "10.0.0.1:3260,1"]
  name_free := by decide
  addresses_free := by decide

/-- The reply that lists it, with a byte of padding. -/
def oneTargetReply : InPdu where
  hdr := [0x24, 0x80]
  dataPos := 48
  data := some (encodeTargets [oneTarget] ++ [0])

/-- The target is found. -/
theorem textReply_correct_one : ∃ o,
    iscsiProcessTextReply { callback := some (.user 1) } {} oneTargetReply = .ok o ∧
      o.calls = [⟨.user 1, scsiStatusGood,
        [⟨ofString "iqn.a", [⟨some (ofString "10.0.0.1:3260,1")⟩]⟩], 0⟩] := by
  obtain ⟨o, ho, hgood, -⟩ := textReply_correct {} (.user 1) oneTargetReply {}
  refine ⟨o, ho, (hgood [oneTarget] rfl (fun _ hok => by cases hok) ?_).1⟩
  exact encodes_padded [oneTarget] 1

end Libiscsi
