import Libiscsi.LoginRun
import Libiscsi.Write
import Libiscsi.CdbCorrect

/-!
# The StatSN of a login

`iscsi_process_login_reply` takes the StatSN of the first reply when the security negotiation has
not got anywhere yet, and that is so for a session with a user only. Otherwise the StatSN is taken
by `iscsi_process_pdu_serials`, from a reply whose StatSN follows the one in the context, which is
zero before the first login. A login has the StatSN of its last reply in the end if one of its
replies was taken (`login_statsn_iff`).
-/

namespace Libiscsi

open CString

/-! ## Logins on one connection -/

/-- A login on one connection, from the context in which its first Login Request was sent, with the
replies and the contexts in which they were received. A login after a redirect, and that of the
context of a reconnect, are logins on their own connections. -/
inductive LoginOn : Context → List (Context × InPdu) → Context → Prop where
  | final {c c' : Context} {q : InPdu} (h : receiveLogin c q = (c', .callback scsiStatusGood 0)) :
      LoginOn c [(c, q)] c'
  | next {env : LoginEnv} {c c₁ c' : Context} {q : InPdu} {steps : List (Context × InPdu)}
      (h : LoginContinues env c q c₁) (hrest : LoginOn c₁ steps c') :
      LoginOn c ((c, q) :: steps) c'

/-- The StatSN of a reply. -/
def InPdu.statsn (q : InPdu) : UInt32 := scsiGetUint32 q.hdr 24

/-- The replies have consecutive StatSNs from `s` on, and the tags of requests. -/
def Consecutive : UInt32 → List (Context × InPdu) → Prop
  | _, [] => True
  | s, x :: steps => x.2.statsn = s ∧ x.2.itt ≠ 0xffffffff ∧ Consecutive (s + 1) steps

/-- The StatSN of the last of `n` replies. -/
def lastStatsn (s : UInt32) (n : Nat) : UInt32 := s + UInt32.ofNat (n - 1)

/-- The security negotiation has not got anywhere. -/
def Context.StartsSecneg (c : Context) : Prop := c.currentPhase = 0 ∧ c.secnegPhase = .offerChap

/-- The StatSN of a reply is taken: in the first stage, or because it is that in the context or
follows it. -/
def Taken (statsn : UInt32) (x : Context × InPdu) : Prop :=
  x.1.StartsSecneg ∨ 0 ≤ iscsiSerial32Compare x.2.statsn statsn

/-! ## One reply -/

/-- A reply with which the login goes on or succeeds. -/
theorem statsn_receiveLogin {c c' : Context} {q : InPdu} {a : LoginAction}
    (h : receiveLogin c q = (c', a)) (ha : a = .login ∨ a = .callback scsiStatusGood 0)
    (hitt : q.itt ≠ 0xffffffff) :
    (c.StartsSecneg → c'.statsn = q.statsn) ∧
      (¬c.StartsSecneg → c'.statsn = laterSerial q.statsn c.statsn) := by
  obtain ⟨c₁, hc₁, hcase⟩ := iscsiProcessLoginReply_parsed h
    (by rcases ha with rfl | rfl <;> decide) (by rcases ha with rfl | rfl <;> decide)
  have hstatus : q.loginStatus = 0 := by
    rcases hcase with ⟨rfl, -⟩ | ⟨hs, -⟩ | ⟨hs, -⟩
    · rcases ha with ha | ha <;> cases ha
    · exact hs
    · exact hs
  have hadvance : (c₁.advance q).statsn = c₁.statsn := by
    unfold Context.advance
    split <;> rfl
  have hsame : c'.statsn = c₁.statsn := by
    rcases hcase with ⟨-, rfl, -⟩ | ⟨-, -, -, rfl⟩ | ⟨-, -, rfl⟩
    · rfl
    · exact hadvance
    · exact hadvance
  have hclass : scsiGetUint16 q.hdr 36 >>> 8 = 0 := by
    rw [show scsiGetUint16 q.hdr 36 = 0 from hstatus]
    rfl
  have hserial : q.serialStatsn = q.statsn := if_neg hitt
  have hserials : iscsiProcessPduSerials c q = { c with
      maxcmdsn := laterSerial (scsiGetUint32 q.hdr 32) c.maxcmdsn
      expcmdsn := laterSerial (scsiGetUint32 q.hdr 28) c.expcmdsn
      statsn := laterSerial q.statsn c.statsn } := by
    unfold iscsiProcessPduSerials
    rw [if_neg (not_not.2 hclass), hserial]
  rw [hsame, hc₁, foldl_stringContext_keeps Context.statsn fun c s => (stringContext_keeps c s).1,
    hserials]
  unfold Context.takeStatsn
  constructor
  · rintro ⟨hphase, hsecneg⟩
    rw [if_pos ⟨hclass, hphase, hsecneg⟩]
    rfl
  · intro hnot
    rw [if_neg (fun h => hnot h.2)]

/-- The StatSN when a reply was processed, and the next Login Request sent. -/
theorem LoginContinues.statsn {env : LoginEnv} {c c' : Context} {q : InPdu}
    (h : LoginContinues env c q c') (hitt : q.itt ≠ 0xffffffff) :
    (c.StartsSecneg → c'.statsn = q.statsn) ∧
      (¬c.StartsSecneg → c'.statsn = laterSerial q.statsn c.statsn) := by
  obtain ⟨c₁, r, hreply, hasync⟩ := h
  have hkeep : c'.statsn = c₁.statsn :=
    iscsiLoginAsync_keeps (fun _ _ _ _ _ _ _ _ _ _ _ => rfl) hasync
  rw [hkeep]
  exact statsn_receiveLogin hreply (.inl rfl) hitt

/-! ## A whole login -/

/-- The next serial number is later, also after the last one. -/
theorem laterSerial_succ (s : UInt32) : laterSerial (s + 1) s = s + 1 := by
  have hlater : iscsiSerial32Compare (s + 1) s > 0 := by
    unfold iscsiSerial32Compare
    grind
  exact if_pos hlater

/-- A serial number that does not follow is not taken. -/
theorem laterSerial_of_neg {s old : UInt32} (h : iscsiSerial32Compare s old < 0) :
    laterSerial s old = old := if_neg (by omega)

/-- A serial number that is the old one or follows it is what is there then. -/
theorem laterSerial_of_nonneg {s old : UInt32} (h : 0 ≤ iscsiSerial32Compare s old) :
    laterSerial s old = s := by
  unfold laterSerial
  split
  · rfl
  · have hzero : iscsiSerial32Compare s old = 0 := by omega
    unfold iscsiSerial32Compare at hzero
    grind

/-- The last of one reply. -/
theorem lastStatsn_one (s : UInt32) : lastStatsn s 1 = s := by
  unfold lastStatsn
  grind

/-- The last of more replies is the last of the rest. -/
theorem lastStatsn_succ (s : UInt32) {n : Nat} (hn : 0 < n) :
    lastStatsn s (n + 1) = lastStatsn (s + 1) n := by
  unfold lastStatsn
  obtain ⟨m, rfl⟩ : ∃ m, n = m + 1 := ⟨n - 1, by omega⟩
  simp only [Nat.add_sub_cancel, UInt32.ofNat_add]
  grind

/-- A login has a reply. -/
theorem LoginOn.length_pos {c c' : Context} {steps : List (Context × InPdu)}
    (h : LoginOn c steps c') : 0 < steps.length := by
  cases h with
  | final => exact Nat.one_pos
  | next => exact Nat.succ_pos _

/-- When the StatSN before a reply is there, every further one is taken. -/
theorem LoginOn.statsn_of_previous {c c' : Context} {steps : List (Context × InPdu)}
    (h : LoginOn c steps c') : ∀ {s : UInt32}, Consecutive s steps → c.statsn + 1 = s →
      c'.statsn = lastStatsn s steps.length := by
  have hone : ∀ {c c₁ : Context} {q : InPdu}, (c.StartsSecneg → c₁.statsn = q.statsn) ∧
      (¬c.StartsSecneg → c₁.statsn = laterSerial q.statsn c.statsn) → c.statsn + 1 = q.statsn →
        c₁.statsn = q.statsn := by
    intro c c₁ q ⟨hstart, hlater⟩ hprev
    by_cases hs : c.StartsSecneg
    · exact hstart hs
    · rw [hlater hs, ← hprev, laterSerial_succ]
  induction h with
  | final h =>
    rintro s ⟨rfl, hitt, -⟩ hprev
    rw [hone (statsn_receiveLogin h (.inr rfl) hitt) hprev]
    exact (lastStatsn_one _).symm
  | next h hrest ih =>
    rintro s ⟨rfl, hitt, hcons⟩ hprev
    have hnow := hone (h.statsn hitt) hprev
    rw [ih hcons (by rw [hnow]), List.length_cons, lastStatsn_succ _ hrest.length_pos]

/-- The StatSN of the last reply is there if one was taken, and else that from before the login,
which is another. -/
theorem LoginOn.statsn_iff {c c' : Context} {steps : List (Context × InPdu)}
    (h : LoginOn c steps c') : ∀ {s : UInt32}, Consecutive s steps →
      (c'.statsn = lastStatsn s steps.length ↔ ∃ x ∈ steps, Taken c.statsn x) := by
  induction h with
  | @final c c' q h =>
    rintro s ⟨rfl, hitt, -⟩
    obtain ⟨hstart, hlater⟩ := statsn_receiveLogin h (.inr rfl) hitt
    simp only [List.mem_singleton, exists_eq_left, List.length_singleton, lastStatsn_one]
    change c'.statsn = q.statsn ↔ c.StartsSecneg ∨ 0 ≤ iscsiSerial32Compare q.statsn c.statsn
    by_cases hs : c.StartsSecneg
    · exact ⟨fun _ => .inl hs, fun _ => hstart hs⟩
    rcases lt_or_ge (iscsiSerial32Compare q.statsn c.statsn) 0 with hneg | hpos
    · rw [hlater hs, laterSerial_of_neg hneg]
      refine ⟨fun heq => .inr ?_,
        fun hor => hor.elim (absurd · hs) fun hle => absurd hle (by omega)⟩
      rw [heq]
      unfold iscsiSerial32Compare
      rw [if_pos rfl]
    · rw [hlater hs, laterSerial_of_nonneg hpos]
      exact ⟨fun _ => .inr hpos, fun _ => rfl⟩
  | @next env c c₁ c' q steps h hrest ih =>
    rintro s ⟨rfl, hitt, hcons⟩
    obtain ⟨hstart, hlater⟩ := h.statsn hitt
    have htaken : c₁.statsn = q.statsn →
        c'.statsn = lastStatsn q.statsn (steps.length + 1) := by
      intro hnow
      rw [lastStatsn_succ _ hrest.length_pos]
      exact hrest.statsn_of_previous hcons (by rw [hnow])
    simp only [List.mem_cons, exists_eq_or_imp, List.length_cons]
    by_cases hs : c.StartsSecneg
    · exact ⟨fun _ => .inl (.inl hs), fun _ => htaken (hstart hs)⟩
    rcases lt_or_ge (iscsiSerial32Compare q.statsn c.statsn) 0 with hneg | hpos
    · -- the reply is not taken, and the rest of the login begins with the same StatSN
      have hnow : c₁.statsn = c.statsn := by rw [hlater hs, laterSerial_of_neg hneg]
      have hnot : ¬Taken c.statsn (c, q) := by
        rintro (hstarts | hle)
        · exact hs hstarts
        · exact absurd hneg (not_lt.2 hle)
      rw [lastStatsn_succ _ hrest.length_pos, ih hcons, hnow]
      exact ⟨.inr, fun hor => hor.resolve_left hnot⟩
    · refine ⟨fun _ => .inl (.inr hpos), fun _ => htaken ?_⟩
      rw [hlater hs, laterSerial_of_nonneg hpos]

/-- The ExpStatSN of a PDU that is not a DATA-OUT one. -/
theorem stamped_expstatsn {c : Context} {pdu : Pdu} (hop : pdu.opcode ≠ iscsiPduDataOut)
    (hlen : 48 ≤ pdu.outdata.length) :
    scsiGetUint32 (pdu.stamped c).outdata 28 = c.statsn + 1 := by
  unfold Pdu.stamped Pdu.setExpstatsn Pdu.setField
  rw [if_pos hop]
  exact scsiGetUint32_set (by omega)

/-- **A login ends with the StatSN of its last reply if a reply was taken**: in the first stage of
the security negotiation, or because its StatSN followed the one from before the login. -/
theorem login_statsn_iff {c c' : Context} {steps : List (Context × InPdu)} {s : UInt32}
    (h : LoginOn c steps c') (hcons : Consecutive s steps) :
    (c'.statsn = lastStatsn s steps.length ∧
      ∀ pdu : Pdu, pdu.opcode ≠ iscsiPduDataOut → 48 ≤ pdu.outdata.length →
        scsiGetUint32 (pdu.stamped c').outdata 28 = lastStatsn s steps.length + 1) ↔
      ∃ x ∈ steps, Taken c.statsn x := by
  rw [← h.statsn_iff hcons]
  refine ⟨And.left, fun heq => ⟨heq, fun pdu hop hlen => ?_⟩⟩
  rw [stamped_expstatsn hop hlen, heq]

/-! ## A login in the upper half of the numbers -/

/-- A context without a user. -/
def plainContext : Context where
  initiatorName := ofString "iqn.i"
  targetName := ofString "iqn.t"
  sessionType := .normal

/-- The context with the first Login Request sent, and a reply that ends the login. -/
def plainStep (statsn : UInt32) : Context × InPdu :=
  ((iscsiLoginAsync {} plainContext).1, loginResponse loginResponseFinal statsn [])

/-- The login of one reply. -/
theorem plain_loginOn (statsn : UInt32)
    (h : (receiveLogin (plainStep statsn).1 (plainStep statsn).2).2 =
      .callback scsiStatusGood 0) :
    LoginOn (plainStep statsn).1 [plainStep statsn]
      (receiveLogin (plainStep statsn).1 (plainStep statsn).2).1 :=
  .final (Prod.ext rfl h)

/-- A StatSN in the lower half. -/
theorem login_statsn_seven :
    (receiveLogin (plainStep 7).1 (plainStep 7).2).1.statsn = lastStatsn 7 1 ∧
      ∀ pdu : Pdu, pdu.opcode ≠ iscsiPduDataOut → 48 ≤ pdu.outdata.length →
        scsiGetUint32 (pdu.stamped (receiveLogin (plainStep 7).1 (plainStep 7).2).1).outdata 28 =
          lastStatsn 7 1 + 1 :=
  (login_statsn_iff (plain_loginOn 7 (by decide +kernel))
    ⟨by decide +kernel, by decide +kernel, trivial⟩).2
    ⟨plainStep 7, List.mem_singleton.2 rfl, .inr (by decide +kernel)⟩

/-- The first StatSN of the upper half is not taken. -/
theorem login_statsn_upper_half : ¬∀ (c c' : Context) (steps : List (Context × InPdu)) (s : UInt32),
    LoginOn c steps c' → Consecutive s steps → c'.statsn = lastStatsn s steps.length := by
  intro h
  have hlast := h _ _ _ 0x80000000 (plain_loginOn 0x80000000 (by decide +kernel))
    ⟨by decide +kernel, by decide +kernel, trivial⟩
  have hzero : (receiveLogin (plainStep 0x80000000).1 (plainStep 0x80000000).2).1.statsn = 0 := by
    decide +kernel
  rw [hzero] at hlast
  exact absurd hlast (by decide)

end Libiscsi
