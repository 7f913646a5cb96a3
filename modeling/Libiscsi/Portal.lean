import Libiscsi.UrlCorrect

/-!
# Portals

The beginning of `iscsi_connect_async` (`lib/socket.c`): the portal group tag behind the last comma
goes, what is behind the last colon is the port unless a bracket closes there, and the brackets of
an IPv6 address go. A host or an address in brackets is found with any port and tag; an IPv6 address
without brackets only if it has a port (`connectPortal_iff`).
-/

namespace Libiscsi

open CString

/-! ## Parsing -/

/-- `strrchr(s, c)`: what is before the last `c` and what is behind it. -/
def cutLast (c : UInt8) : CStr → Option (CStr × CStr)
  | [] => none
  | b :: s =>
    match cutLast c s with
    | some (front, back) => some (b :: front, back)
    | none => if b = c then some ([], s) else none

/-- The portal without its portal group tag. -/
def dropTag (portal : CStr) : CStr :=
  match cutLast 0x2c portal with
  | some (host, _) => host
  | none => portal

/-- The host and the port. -/
def splitPort (host : CStr) : CStr × Int :=
  match cutLast 0x3a host with
  | some (front, back) => if 0x5d ∈ back then (host, 3260) else (front, atoi back)
  | none => (host, 3260)

/-- The host without brackets; `none` where the closing one is missing. -/
def unbracket : CStr → Option CStr
  | 0x5b :: host => if 0x5d ∈ host then some (host.takeWhile (· ≠ 0x5d)) else none
  | host => some host

/-- `iscsi_connect_async` up to `getaddrinfo`: the host, and the port. -/
def connectPortal (portal : CStr) : Option (CStr × Int) :=
  let (host, port) := splitPort (dropTag portal)
  (unbracket host).map fun host => (host, port)

/-! ## Texts of portals -/

/-- A host, or an address in brackets. -/
inductive PortalHost where
  | plain (host : CStr)
  | bracketed (host : CStr)

namespace PortalHost

def host : PortalHost → CStr
  | plain host => host
  | bracketed host => host

def text : PortalHost → CStr
  | plain host => host
  | bracketed host => 0x5b :: host ++ [0x5d]

/-- No byte that ends the host is in it. -/
structure Ok (h : PortalHost) : Prop where
  comma : 0x2c ∉ h.host
  closing : 0x5d ∉ h.host
  opening : ∀ host, h = plain host → host.head? ≠ some 0x5b

end PortalHost

/-- A colon and the port, if there is one. -/
def portText : Option Nat → CStr
  | none => []
  | some n => 0x3a :: decimal n

/-- A comma and the portal group tag, if there is one. -/
def tagText : Option CStr → CStr
  | none => []
  | some tag => 0x2c :: tag

/-! ## The last one -/

section
variable {c : UInt8} {s front back : CStr}

theorem cutLast_eq_none (h : c ∉ s) : cutLast c s = none := by
  induction s with
  | nil => rfl
  | cons b s ih =>
    obtain ⟨hb, hs⟩ := not_or.1 (mt List.mem_cons.2 h)
    rw [cutLast, ih hs]
    exact if_neg (Ne.symm hb)

theorem cutLast_append (h : c ∉ back) : cutLast c (front ++ c :: back) = some (front, back) := by
  induction front with
  | nil =>
    rw [List.nil_append, cutLast, cutLast_eq_none h]
    exact if_pos rfl
  | cons b front ih => rw [List.cons_append, cutLast, ih]

/-- What is there has a last one. -/
theorem exists_cutLast (h : c ∈ s) :
    ∃ front back, s = front ++ c :: back ∧ cutLast c s = some (front, back) := by
  obtain ⟨back, front, hs, hnot⟩ := List.eq_append_cons_of_mem (List.mem_reverse.2 h)
  have hsplit : s = front.reverse ++ c :: back.reverse := by
    rw [← List.reverse_reverse s, hs]
    simp
  have hback : c ∉ back.reverse := fun hmem => hnot (List.mem_reverse.1 hmem)
  exact ⟨front.reverse, back.reverse, hsplit, by rw [hsplit, cutLast_append hback]⟩

end

/-! ## Round trip -/

section
variable {h : PortalHost} {port : Option Nat} {tag : Option CStr}

/-- A byte that is neither in the host nor a bracket is not in the text. -/
theorem notMem_text {b : UInt8} (hb : b ∉ h.host) (hopen : b ≠ 0x5b) (hclose : b ≠ 0x5d) :
    b ∉ h.text := by
  cases h with
  | plain host => exact hb
  | bracketed host =>
    intro hmem
    rcases List.mem_append.1 hmem with hmem | hmem
    · exact (List.mem_cons.1 hmem).elim hopen hb
    · exact hclose (List.mem_singleton.1 hmem)

/-- No digit is a byte with a meaning of its own. -/
theorem notMem_decimal {b : UInt8} (hb : isDigitByte b = false) (n : Nat) :
    b ∉ decimal (n : Int) := fun hmem =>
  Bool.false_ne_true (hb.symm.trans (isDigitByte_decimal hmem))

theorem dropTag_text (hok : h.Ok) (htag : ∀ t ∈ tag, 0x2c ∉ t) :
    dropTag (h.text ++ portText port ++ tagText tag) = h.text ++ portText port := by
  have hfront : 0x2c ∉ h.text ++ portText port := by
    intro hmem
    rcases List.mem_append.1 hmem with hmem | hmem
    · exact notMem_text hok.comma (by decide) (by decide) hmem
    · cases port with
      | none => exact List.not_mem_nil hmem
      | some n =>
        exact (List.mem_cons.1 hmem).elim (by decide) (notMem_decimal (by decide) n)
  unfold dropTag
  cases tag with
  | none => rw [tagText, List.append_nil, cutLast_eq_none hfront]
  | some t => rw [tagText, cutLast_append (htag t rfl)]

/-- The port is found. -/
theorem splitPort_port {n : Nat} (hn : n < 2 ^ 31) :
    splitPort (h.text ++ portText (some n)) = (h.text, (n : Int)) := by
  unfold splitPort portText
  rw [cutLast_append (notMem_decimal (by decide) n)]
  simp only
  rw [if_neg (notMem_decimal (by decide) n)]
  exact congrArg _ (strtol_decimal hn).1

/-- An address in brackets has no port if none follows. -/
theorem splitPort_bracketed (host : CStr) : splitPort (PortalHost.bracketed host).text =
    ((PortalHost.bracketed host).text, 3260) := by
  unfold splitPort
  by_cases hmem : 0x3a ∈ (PortalHost.bracketed host).text
  · obtain ⟨front, back, hsplit, hcut⟩ := exists_cutLast hmem
    rw [hcut]
    simp only
    refine if_pos ?_
    -- the bracket is the last byte, and the colon is not
    have hlast : (front ++ 0x3a :: back).getLast? = some 0x5d := by
      rw [← hsplit]
      exact List.getLast?_concat
    cases back using List.reverseRecOn with
    | nil => simp at hlast
    | append_singleton back b =>
      rw [← List.cons_append, ← List.append_assoc, List.getLast?_concat] at hlast
      rw [Option.some.inj hlast]
      exact List.mem_append_right _ (List.mem_singleton.2 rfl)
  · rw [cutLast_eq_none hmem]

/-- The brackets go. -/
theorem unbracket_text (hok : h.Ok) : unbracket h.text = some h.host := by
  cases h with
  | plain host =>
    have hopen := hok.opening host rfl
    change unbracket host = some host
    unfold unbracket
    split
    · exact absurd rfl hopen
    · rfl
  | bracketed host =>
    have hmem : 0x5d ∈ host ++ [0x5d] := List.mem_append_right _ (List.mem_singleton.2 rfl)
    have hhost : (host ++ [0x5d]).takeWhile (· ≠ 0x5d) = host := by
      rw [List.takeWhile_append_of_pos]
      · simp
      · intro b hb
        exact decide_eq_true fun heq => hok.closing (heq ▸ hb)
    change (if 0x5d ∈ host ++ [0x5d] then some ((host ++ [0x5d]).takeWhile (· ≠ 0x5d))
      else none) = _
    rw [if_pos hmem, hhost]
    rfl

/-- What is left of a host is not longer. -/
theorem length_unbracket {s s' : CStr} (h : unbracket s = some s') : s'.length ≤ s.length := by
  unfold unbracket at h
  split at h
  · split at h
    · obtain rfl := Option.some.inj h
      exact (List.takeWhile_prefix _).length_le.trans (Nat.le_succ _)
    · cases h
  · obtain rfl := Option.some.inj h
    exact le_rfl

/-- **A portal leads to its host and its port**, with any portal group tag, except that a host with
a colon and without brackets needs a port. -/
theorem connectPortal_iff (hok : h.Ok) (hport : ∀ n ∈ port, n < 2 ^ 31)
    (htag : ∀ t ∈ tag, 0x2c ∉ t) :
    connectPortal (h.text ++ portText port ++ tagText tag) =
        some (h.host, ((port.getD 3260 : Nat) : Int)) ↔
      (port = none → ∀ host, h = .plain host → 0x3a ∉ host) := by
  have hunbracket := unbracket_text hok
  unfold connectPortal
  rw [dropTag_text hok htag]
  cases port with
  | some n =>
    rw [splitPort_port (hport n rfl)]
    simp only
    rw [hunbracket]
    exact ⟨fun _ h => absurd h (Option.some_ne_none n), fun _ => rfl⟩
  | none =>
    rw [portText, List.append_nil]
    cases h with
    | bracketed host =>
      rw [splitPort_bracketed]
      simp only
      rw [hunbracket]
      exact ⟨fun _ _ _ h => (by cases h), fun _ => rfl⟩
    | plain host =>
      by_cases hcolon : 0x3a ∈ host
      · -- the last group of the address is taken for the port
        obtain ⟨front, back, hsplit, hcut⟩ := exists_cutLast hcolon
        have hback : 0x5d ∉ back := fun hmem => hok.closing
          (hsplit ▸ List.mem_append_right _ (List.mem_cons_of_mem _ hmem))
        have hparse : splitPort (PortalHost.plain host).text = (front, atoi back) := by
          change splitPort host = _
          unfold splitPort
          rw [hcut]
          exact if_neg hback
        rw [hparse]
        simp only
        refine ⟨fun heq => ?_, fun h => absurd hcolon (h trivial host rfl)⟩
        obtain ⟨s, hs, heq⟩ := Option.map_eq_some_iff.1 heq
        have hlength := length_unbracket hs
        rw [(Prod.mk.inj heq).1] at hlength
        change host.length ≤ front.length at hlength
        rw [hsplit, List.length_append, List.length_cons] at hlength
        omega
      · have hparse : splitPort (PortalHost.plain host).text =
            ((PortalHost.plain host).text, 3260) := by
          change splitPort host = _
          unfold splitPort
          rw [cutLast_eq_none hcolon]
          rfl
        rw [hparse]
        simp only
        rw [hunbracket]
        refine ⟨fun _ _ host' h => ?_, fun _ => rfl⟩
        cases h
        exact hcolon

end

/-- `[fe80::1]:860,1`. -/
theorem connectPortal_ipv6 :
    connectPortal ((PortalHost.bracketed (ofString "fe80::1")).text ++ portText (some 860) ++
        tagText (some (ofString "1"))) = some (ofString "fe80::1", 860) ↔
      ((some 860 : Option Nat) = none → ∀ host, PortalHost.bracketed (ofString "fe80::1") =
        .plain host → 0x3a ∉ host) :=
  connectPortal_iff ⟨by decide, by decide, fun _ h => (by cases h)⟩
    (fun n hn => by cases hn; decide) (fun t ht => by cases ht; decide)

end Libiscsi
