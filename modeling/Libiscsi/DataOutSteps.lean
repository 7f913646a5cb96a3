import Libiscsi.DataOutOwner

/-!
# The commands of the queued DATA-OUTs: writing and cancelling

Writing moves a command from `outqueue` to `waitpdu`, and frees a DATA-OUT when it has been sent:
it loses no command (`OwnerInv.write`). A cancellation takes the DATA-OUTs in `outqueue` out with
their command, but not the one that is being sent.
-/

namespace Libiscsi

/-! ## The service -/

section
variable {w w' : World}

/-- A command that stays: it is in one of the queues, and has not expired. -/
def World.Staying (w : World) (b : Addr) (k : UInt32 × Option TaskPtr) : Prop :=
  b ∈ w.iscsi.outqueue ++ w.iscsi.waitpdu ∧ w.CommandAt b k ∧
    ∀ p, w.pdus b = some p → p.expired w.now = false

/-- What a run of `service` keeps: the invariant, with no command at risk, and the commands that
have not expired. -/
structure Serving (w w' : World) : Prop where
  inv : OwnerInv w'
  noRisk : w'.NoRisk
  staying : ∀ b k, w.Staying b k → w'.Staying b k
  risky : ∀ k, w'.Risky k → w.Risky k

theorem Serving.trans {w'' : World} (h : Serving w w') (h' : Serving w' w'') : Serving w w'' :=
  ⟨h'.inv, h'.noRisk, fun b k hb => h'.staying b k (h.staying b k hb),
    fun k hk => h.risky k (h'.risky k hk)⟩

theorem Serving.refl (hi : OwnerInv w) (hr : w.NoRisk) : Serving w w :=
  ⟨hi, hr, fun _ _ h => h, fun _ h => h⟩

/-- A command that stays in the queues stays. -/
theorem Thins.staying {b : Addr} {k : UInt32 × Option TaskPtr} (h : Thins w w')
    (hb : w.Staying b k) (hmem : b ∈ w'.iscsi.outqueue ++ w'.iscsi.waitpdu) : w'.Staying b k := by
  obtain ⟨_, hcmd, hexp⟩ := hb
  refine ⟨hmem, h.commandAt hmem hcmd, fun q hq => ?_⟩
  obtain ⟨p, hp, _⟩ := hcmd
  rw [(h.alike b (List.mem_append_left _ hmem) p q hp hq).expired, h.now]
  exact hexp p hp

theorem Keeps.serving (hi : OwnerInv w) (hr : w.NoRisk) (h : Keeps w w') : Serving w w' :=
  ⟨hi.keeps h, h.noRisk hi.live hr,
    fun b k hb => h.staying hb (by rw [h.sameOutqueue, h.sameWaitpdu]; exact hb.1),
    fun k hk => h.toThins.risky hi.live hk⟩

end

/-! ## Writing -/

section
variable {w w' : World} {a : Addr}

/-- What is sent of a PDU changes nothing else. -/
theorem keeps_sending (h : Sending a w w') : Keeps w w' := by
  obtain ⟨p, q, hp, hq, hpq⟩ := h.pdu
  refine ⟨⟨h.olds, by rw [h.iscsi], le_of_eq h.brk.symm, h.now, by rw [h.iscsi], by rw [h.iscsi],
    .inl (by rw [h.iscsi]), fun b _ hb => ?_, fun b _ r s hr hs => ?_⟩, by rw [h.iscsi],
    by rw [h.iscsi]⟩
  · by_cases hba : b = a
    · rw [hba, hq, Function.update_self]
      rfl
    · rwa [h.of_ne hba]
  · by_cases hba : b = a
    · subst hba
      rw [hq, Function.update_self] at hs
      obtain rfl := Option.some.inj (hp.symm.trans hr)
      obtain rfl := Option.some.inj hs
      exact hpq.alike
    · rw [h.of_ne hba, hr] at hs
      obtain rfl := Option.some.inj hs
      exact .refl _

/-- A change of the context that leaves the queues alone. -/
theorem keeps_modify {f : Context → Context} (hout : (f w.iscsi).outqueue = w.iscsi.outqueue)
    (hwait : (f w.iscsi).waitpdu = w.iscsi.waitpdu)
    (hcur : (f w.iscsi).outqueueCurrent = w.iscsi.outqueueCurrent ∨
      (f w.iscsi).outqueueCurrent = none)
    (hd : (f w.iscsi).headerDigest = w.iscsi.headerDigest) : Keeps w (w.modify f) :=
  ⟨.of_eq rfl hd (le_refl _) rfl (by rw [World.modify_iscsi, hout])
    (by rw [World.modify_iscsi, hwait]) hcur fun _ _ => rfl, hout, hwait⟩

/-- The end of a PDU: if it is freed it waits for no response. -/
theorem OwnerInv.keeps_writeDone (hi : OwnerInv w) (hcur : w.iscsi.outqueueCurrent = some a)
    (h : writeDone w a = .ok w') : Keeps w w' := by
  unfold writeDone at h
  obtain ⟨p, hp, h⟩ := Outcome.bind_eq_ok.1 h
  rw [World.deref_eq_ok] at hp
  obtain ⟨w₂, h₂, h⟩ := Outcome.bind_eq_ok.1 h
  obtain rfl := Except.ok.inj h
  have hcork : ∀ w₁ : World, (w₁ = if p.hasFlag iscsiPduCorkWhenSent then
      w.modify fun c => { c with isCorked := true } else w) → Keeps w w₁ := by
    rintro w₁ rfl
    split
    · exact keeps_modify rfl rfl (.inl rfl) rfl
    · exact .refl w
  have hk₁ := hcork _ rfl
  have hk₂ : Keeps w w₂ := by
    unfold releaseSent at h₂
    split at h₂
    · next hflag =>
      obtain ⟨_, rfl⟩ := iscsiFreePdu_eq_ok.1 h₂
      refine hk₁.trans (keeps_release ?_)
      rw [hk₁.sameOutqueue, hk₁.sameWaitpdu, List.mem_append, not_or]
      exact ⟨hi.current a hcur, hi.sent a hcur p hp hflag⟩
    · obtain rfl := Except.ok.inj h₂
      exact hk₁
  exact hk₂.trans (keeps_modify rfl rfl (.inr rfl) rfl)

/-- **Taking the head of `outqueue` keeps the invariant**: a command is in `waitpdu` from then on,
a DATA-OUT is the PDU being sent. -/
theorem OwnerInv.taken {rest : List Addr} {p q : Pdu} (hi : OwnerInv w)
    (hcur : w.iscsi.outqueueCurrent = none) (hq : w.iscsi.outqueue = a :: rest)
    (hp : w.pdus a = some p) (hpq : p.TakenAs w.iscsi q) :
    OwnerInv (w.taken a q) ∧ (w.NoRisk → Serving w (w.taken a q)) := by
  have halike := hpq.alike
  have hnd := hi.nodup
  rw [hq, List.cons_append, List.nodup_cons] at hnd
  have hout : (w.taken a q).iscsi.outqueue = rest := by
    rw [World.taken_outqueue, hq, List.erase_cons_head]
  set wait := (w.taken a q).iscsi.waitpdu with hwait
  have hwaits : wait = w.iscsi.waitpdu ∧ q.hasFlag iscsiPduDeleteWhenSent = true ∨
      wait = w.iscsi.waitpdu ++ [a] ∧ q.hasFlag iscsiPduDeleteWhenSent = false :=
    World.taken_waits
  have hself : (w.taken a q).pdus a = some q := by simp
  have hother : ∀ b, b ≠ a → (w.taken a q).pdus b = w.pdus b := fun _ => World.taken_pdus_ne
  -- each PDU is the one it was
  have hback : ∀ b r, (w.taken a q).pdus b = some r → ∃ r', w.pdus b = some r' ∧ r'.Alike r := by
    intro b r hr
    by_cases hb : b = a
    · subst hb
      obtain rfl := Option.some.inj (hself.symm.trans hr)
      exact ⟨p, hp, halike⟩
    · exact ⟨r, by rw [← hother b hb, hr], .refl r⟩
  have hdata : ∀ k, (w.taken a q).DataOut k → w.DataOut k := by
    rintro k ⟨d, hd, r, hr, hop, htag⟩
    obtain ⟨r', hr', hal⟩ := hback d r hr
    refine ⟨d, ?_, r', hr', hal.opcode.symm.trans hop, hal.tag.symm.trans htag⟩
    rw [hout, World.taken_outqueueCurrent] at hd
    rw [hcur, hq]
    simpa using hd
  have hcmd : ∀ b k, b ∈ w.iscsi.outqueue ++ w.iscsi.waitpdu → w.CommandAt b k →
      b ∈ rest ++ wait ∧ (w.taken a q).CommandAt b k := by
    rintro b k hb ⟨r, hr, hop, htag⟩
    by_cases hba : b = a
    · subst hba
      obtain rfl := Option.some.inj (hp.symm.trans hr)
      have hkept := hi.waits b hb p hp hop
      refine ⟨?_, q, hself, halike.opcode.trans hop, halike.tag.trans htag⟩
      rcases hwaits with ⟨_, hflag⟩ | ⟨heq, _⟩
      · rw [halike.hasFlag, hkept] at hflag
        cases hflag
      · rw [heq]
        simp
    · refine ⟨?_, r, by rw [hother b hba, hr], hop, htag⟩
      rw [hq, List.cons_append, List.mem_cons] at hb
      have hb := hb.resolve_left hba
      rcases List.mem_append.1 hb with hb | hb
      · exact List.mem_append_left _ hb
      · refine List.mem_append_right _ ?_
        rcases hwaits with ⟨heq, _⟩ | ⟨heq, _⟩
        · rwa [heq]
        · rw [heq]
          exact List.mem_append_left _ hb
  have haddrs : ∀ b ∈ (w.taken a q).iscsi.addrs, b ∈ w.iscsi.addrs := fun _ =>
    World.mem_addrs_of_taken hq
  have hrisky : ∀ k, (w.taken a q).Risky k → w.Risky k := by
    rintro k ⟨b, r, hrb, hop, htag, hexp, hb⟩
    obtain ⟨r', hr', hal⟩ := hback b r hrb
    refine ⟨b, r', hr', hal.opcode.symm.trans hop, hal.tag.symm.trans htag, ?_, ?_⟩
    · rw [← hal.expired, ← hexp, World.taken_now]
    · rw [hout] at hb
      rcases hb with hb | ⟨hb, hwrite⟩
      · exact .inl (by rw [hq]; exact List.mem_cons_of_mem _ hb)
      · by_cases hba : b = a
        · exact .inl (by rw [hba, hq]; exact List.mem_cons_self ..)
        · refine .inr ⟨?_, hal.isWriteRequest.symm.trans hwrite⟩
          rcases hwaits with ⟨heq, _⟩ | ⟨heq, _⟩
          · rwa [← heq]
          · rw [← hwait, heq, List.mem_append, List.mem_singleton] at hb
            exact hb.resolve_right hba
  have hstaying : ∀ b k, w.Staying b k → (w.taken a q).Staying b k := by
    rintro b k ⟨hb, hc, hexp⟩
    obtain ⟨hb', hc'⟩ := hcmd b k hb hc
    refine ⟨by rwa [hout], hc', fun r hr => ?_⟩
    obtain ⟨r', hr', hal⟩ := hback b r hr
    rw [hal.expired, World.taken_now]
    exact hexp r' hr'
  have hinv : OwnerInv (w.taken a q) := by
    refine ⟨?_, ?_, ?_, ?_, ?_, ?_, ?_, ?_, ?_⟩
    · rw [World.taken_olds, hi.olds]
    · rw [hout]
      exact World.nodup_taken hq hi.nodup
    · intro b hb
      rw [World.taken_brk]
      exact hi.below b (haddrs b hb)
    · intro b hb
      rw [World.taken_outqueueCurrent] at hb
      obtain rfl := Option.some.inj hb
      rw [hout]
      exact fun hm => hnd.1 (List.mem_append_left _ hm)
    · intro b hb
      by_cases hba : b = a
      · rw [hba, hself]
        rfl
      · rw [hother b hba]
        exact hi.live b (haddrs b hb)
    · intro b hb r hr
      rw [hout] at hb
      have hba : b ≠ a := fun heq => hnd.1 (List.mem_append_left _ (heq ▸ hb))
      rw [hother b hba] at hr
      rw [World.taken_headerDigest]
      exact hi.size b (by rw [hq]; exact List.mem_cons_of_mem _ hb) r hr
    · intro b hb r hr hop
      rw [hout] at hb
      obtain ⟨r', hr', hal⟩ := hback b r hr
      rw [hal.hasFlag]
      exact hi.waits b (World.mem_of_taken hq hb) r' hr' (hal.opcode.symm.trans hop)
    · intro b hb r hr hflag
      rw [World.taken_outqueueCurrent] at hb
      obtain rfl := Option.some.inj hb
      obtain rfl := Option.some.inj (hself.symm.trans hr)
      rcases hwaits with ⟨heq, _⟩ | ⟨_, hkept⟩
      · rw [← hwait, heq]
        exact fun hm => hnd.1 (List.mem_append_right _ hm)
      · rw [hkept] at hflag
        cases hflag
    · intro k hk
      obtain ⟨b, hb, hc⟩ := hi.owned k (hdata k hk)
      obtain ⟨hb', hc'⟩ := hcmd b k hb hc
      exact ⟨b, by rwa [hout], hc'⟩
  exact ⟨hinv, fun hr => ⟨hinv, fun k hk hrk => hr k (hdata k hk) (hrisky k hrk), hstaying,
    hrisky⟩⟩

/-- **One step of `iscsi_write_to_socket` keeps the invariant.** -/
theorem OwnerInv.writeStep {act : WriteAct} (hi : OwnerInv w) (h : WriteStep act w w') :
    OwnerInv w' ∧ (w.NoRisk → Serving w w') := by
  cases h with
  | @take _ _ a rest r hcur hq h =>
    obtain ⟨_, rfl⟩ | ⟨p, hp, ⟨_, hd, hsize, _⟩ | ⟨_, q, hpq, rfl⟩⟩ := takeHead_cases h
    · exact ⟨hi, .refl hi⟩
    · -- the header has room for its digest
      have hroom := hi.size a (hq ▸ List.mem_cons_self ..) p hp
      rw [iscsiHeaderSize, if_neg hd] at hroom
      omega
    · exact hi.taken hcur hq hp hpq
  | sending hcur h =>
    have hk := keeps_sending h
    exact ⟨hi.keeps hk, fun hr => hk.serving hi hr⟩
  | done hcur h =>
    have hk := hi.keeps_writeDone hcur h
    exact ⟨hi.keeps hk, fun hr => hk.serving hi hr⟩

/-- **`iscsi_write_to_socket` keeps the invariant.** -/
theorem OwnerInv.write {r : Int} (hi : OwnerInv w) (h : iscsiWriteToSocket w = .ok (r, w')) :
    OwnerInv w' ∧ (w.NoRisk → Serving w w') := by
  have hrun := iscsiWriteToSocket_run h
  clear h
  induction hrun with
  | refl => exact ⟨hi, .refl hi⟩
  | tail _ hstep ih =>
    obtain ⟨act, hstep⟩ := hstep
    obtain ⟨hi₁, hs₁⟩ := ih
    obtain ⟨hi₂, hs₂⟩ := hi₁.writeStep hstep
    exact ⟨hi₂, fun hr => (hs₁ hr).trans (hs₂ (hs₁ hr).noRisk)⟩

/-- **A run of `service` keeps the invariant** while no command at risk has a DATA-OUT. -/
theorem OwnerInv.service (hi : OwnerInv w) (hr : w.NoRisk) (hrun : Run ServiceStep w w') :
    Serving w w' := by
  induction hrun with
  | refl => exact .refl hi hr
  | tail _ hstep ih =>
    obtain ⟨act, hstep⟩ := hstep
    refine ih.trans ?_
    cases hstep with
    | write h => exact (ih.inv.write h).2 ih.noRisk
    | timeoutScan h =>
      obtain ⟨hi', hthin, hstay⟩ := ih.inv.timeoutScan ih.noRisk h
      exact ⟨hi', hthin.noRisk ih.inv.live ih.noRisk,
        fun b k hb => hthin.staying hb (hstay b hb.1 hb.2.2),
        fun k hk => hthin.risky ih.inv.live hk⟩

end

/-! ## Cancelling -/

section
variable {w w' : World} {a : Addr}

/-- The DATA-OUT that is being sent is none of a command of `outqueue` that is selected. -/
def World.CurrentKept (w : World) (sel : World → Pdu → Bool) : Prop :=
  ∀ d p b, w.iscsi.outqueueCurrent = some d → w.pdus d = some p →
    p.opcode = iscsiPduDataOut → b ∈ w.iscsi.outqueue → w.CommandAt b p.tag →
      w.selects sel b = false

/-- The DATA-OUTs of a PDU that is selected are selected. -/
def SelByTag (sel : World → Pdu → Bool) : Prop :=
  ∀ (w : World) (p q : Pdu), p.tag = q.tag → sel w p = sel w q

theorem taskOfLun_byTag (lun : UInt32) : SelByTag (taskOfLun lun) := by
  intro w p q h
  have htask : p.scsiCbdata.task = q.scsiCbdata.task := congrArg Prod.snd h
  unfold taskOfLun
  rw [htask]

theorem hasItt_byTag (itt : UInt32) : SelByTag (hasItt itt) := by
  intro w p q h
  have hitt : p.itt = q.itt := congrArg Prod.fst h
  unfold hasItt
  rw [hitt]

/-- **A selection by tag takes commands out with their DATA-OUTs**, but for the one being sent. -/
theorem OwnerInv.unlinkTag {sel : World → Pdu → Bool} (hi : OwnerInv w) (h : Thins w w')
    (hsel : SelByTag sel) (hkept : w.CurrentKept sel)
    (hout : w'.iscsi.outqueue = w.iscsi.outqueue.filter (fun a => !w.selects sel a))
    (hwait : w'.iscsi.waitpdu = w.iscsi.waitpdu) : OwnerInv w' := by
  refine hi.thin h fun b k hb hcmd hk => ?_
  rw [hwait, List.mem_append]
  refine (List.mem_append.1 hb).imp (fun hb => ?_) id
  rw [hout, List.mem_filter]
  refine ⟨hb, ?_⟩
  obtain ⟨d, hd, r, hr, hop, htag⟩ := hk
  have hmem : d ∈ w'.iscsi.addrs := by
    simp only [Context.addrs, List.mem_append] at hd ⊢
    exact hd.elim .inr fun hd => .inl (.inl hd)
  obtain ⟨p, hp⟩ := Option.isSome_iff_exists.1 (hi.live d (h.mem_addrs hmem))
  have halike := h.alike d hmem p r hp hr
  have hptag : p.tag = k := halike.tag.symm.trans htag
  rcases List.mem_append.1 hd with hd | hd
  · rcases h.current with hc | hc
    · rw [Option.mem_toList, hc] at hd
      rw [hkept d p b hd hp (halike.opcode.symm.trans hop) hb (hptag ▸ hcmd)]
      rfl
    · rw [hc] at hd
      cases hd
  · rw [hout, List.mem_filter] at hd
    obtain ⟨q, hq, _, hqtag⟩ := hcmd
    have hsame : w.selects sel b = w.selects sel d := by
      simp only [World.selects, hp, hq]
      exact hsel w q p (hqtag.trans hptag.symm)
    rw [hsame]
    exact hd.2

/-- **`iscsi_cancel_lun_pdus` keeps the invariant** unless a DATA-OUT of a command it takes out is
being sent. -/
theorem OwnerInv.cancelLun {lun : UInt32} (hi : OwnerInv w)
    (hkept : w.CurrentKept (taskOfLun lun)) (h : iscsiCancelLunPdus w lun = .ok w') :
    OwnerInv w' := by
  unfold iscsiCancelLunPdus at h
  obtain ⟨⟨tmp, w₁⟩, h₁, h₂⟩ := Outcome.bind_eq_ok.1 h
  obtain ⟨w₁', h₁', hspec⟩ := unlinkOutqueue_spec (taskOfLun_stable lun) (i := []) (j := [])
    (n := 0) (w := w) rfl (List.nodup_append.1 hi.nodup).1 hi.live_outqueue
  obtain ⟨rfl, rfl⟩ := Prod.mk.inj (Except.ok.inj (h₁'.symm.trans h₁))
  obtain ⟨hthin, hout, hwait, _⟩ := hspec.thins
  refine (hi.unlinkTag hthin (taskOfLun_byTag lun) hkept hout hwait).keeps
    (keeps_completeTmp (fun a ha => ?_) h₂)
  rw [hout, hwait]
  exact unlinked_notMem hi.nodup (by simpa using ha)

/-- A command that waits for a response and is to be cancelled has no DATA-OUT left; if there is
none, no DATA-OUT of a command in `outqueue` that is to be cancelled is being sent. -/
def World.CancelsWhole (w : World) (itt : UInt32) : Prop :=
  (∀ a ∈ w.iscsi.waitpdu, w.selects (hasItt itt) a = true → ∀ k, w.CommandAt a k →
    ¬w.DataOut k) ∧
  ((∀ a ∈ w.iscsi.waitpdu, w.selects (hasItt itt) a = false) → w.CurrentKept (hasItt itt))

/-- PDUs are taken off `outqueue`. -/
theorem thins_setOutqueue {l : List Addr} (h : l.Sublist w.iscsi.outqueue) :
    Thins w (w.modify (·.setOutqueue l)) :=
  .of_eq rfl rfl (le_refl _) rfl h (.refl _) (.inl rfl) fun _ _ => rfl

/-- The PDU that is found has the tag. -/
theorem findItt_selects {itt : UInt32} : ∀ {l : List Addr},
    findItt w itt l = .ok (some a) → w.selects (hasItt itt) a = true
  | [], h => by cases h
  | b :: l, h => by
    unfold findItt at h
    obtain ⟨p, hp, h⟩ := Outcome.bind_eq_ok.1 h
    rw [World.deref_eq_ok] at hp
    split at h
    · next heq =>
      obtain rfl := Option.some.inj (Except.ok.inj h)
      simp [World.selects, hp, hasItt, heq]
    · exact findItt_selects h

/-- **`iscsi_scsi_cancel_task` keeps the invariant** where it leaves no DATA-OUT behind. -/
theorem OwnerInv.cancelTask {t : TaskPtr} {r : Int} (hi : OwnerInv w)
    (hgood : w.CancelsWhole (w.tasks t).itt) (h : iscsiScsiCancelTask w t = .ok (r, w')) :
    OwnerInv w' := by
  unfold iscsiScsiCancelTask at h
  rw [hi.olds] at h
  unfold cancelTaskFrom at h
  obtain ⟨⟨done, ret, w₁⟩, hhere, h⟩ := Outcome.bind_eq_ok.1 h
  obtain ⟨_, rfl⟩ := Prod.mk.inj (Except.ok.inj h)
  unfold cancelTaskHere at hhere
  set itt := (w.tasks t).itt
  obtain ⟨found, hfind, hhere⟩ := Outcome.bind_eq_ok.1 hhere
  obtain ⟨hsome, hnone⟩ := findItt_spec hfind
  cases found with
  | some a =>
    obtain ⟨waitpdu, hrem, hhere⟩ := Outcome.bind_eq_ok.1 hhere
    obtain ⟨w₂, hcomp, hhere⟩ := Outcome.bind_eq_ok.1 hhere
    obtain ⟨_, hhere⟩ := Prod.mk.inj (Except.ok.inj hhere)
    obtain ⟨_, rfl⟩ := Prod.mk.inj hhere
    rw [(listRemove_eq_ok.1 hrem).2] at hcomp
    exact hi.complete (hsome a rfl) (hgood.1 a (hsome a rfl) (findItt_selects hfind)) hcomp
  | none =>
    obtain ⟨⟨tmp, w₂⟩, hunlink, hhere⟩ := Outcome.bind_eq_ok.1 hhere
    obtain ⟨⟨ret', w₃⟩, hcancel, hhere⟩ := Outcome.bind_eq_ok.1 hhere
    obtain ⟨_, hhere⟩ := Prod.mk.inj (Except.ok.inj hhere)
    obtain ⟨_, rfl⟩ := Prod.mk.inj hhere
    obtain ⟨rfl, rfl⟩ := unlinkItt_eq (i := []) rfl (List.nodup_append.1 hi.nodup).1 hunlink
    simp only [List.nil_append] at hcancel
    set kept := w.iscsi.outqueue.filter fun a => !w.selects (hasItt itt) a
    have hi₁ := hi.unlinkTag (thins_setOutqueue (w := w) (l := kept) List.filter_sublist)
      (hasItt_byTag itt) (hgood.2 (hnone rfl)) rfl rfl
    obtain ⟨_, rfl⟩ | ⟨b, rest, p, hb, hp, rfl⟩ := cancelTmp_cases hcancel
    · exact hi₁
    · set v := (w.modify (·.setOutqueue kept)).modify (·.setCmdsn
        ((w.modify (·.setOutqueue kept)).iscsi.cmdsn - if p.isCommand then 1 else 0)) with hv
      have hk₁ : Keeps (w.modify (·.setOutqueue kept)) v := keeps_modify rfl rfl (.inl rfl) rfl
      have hk₂ := hk₁.trans (keeps_called v b p scsiStatusCancelled)
      refine hi₁.keeps (hk₂.trans (keeps_release ?_))
      rw [hk₂.sameOutqueue, hk₂.sameWaitpdu]
      exact unlinked_notMem hi.nodup (by rw [hb]; exact List.mem_cons_self ..)

/-- The loop over `outqueue` of `iscsi_cancel_pdus`. -/
theorem cancelOutqueue_thins : ∀ {l : List Addr} {w w' : World}, w.iscsi.outqueue = l →
    (l ++ w.iscsi.waitpdu).Nodup → cancelOutqueue l w = .ok w' →
    Thins w w' ∧ w'.iscsi.outqueue = [] ∧ w'.iscsi.waitpdu = w.iscsi.waitpdu
  | [], w, w', hq, _, h => by
    obtain rfl := Except.ok.inj h
    exact ⟨.refl w, hq, rfl⟩
  | a :: rest, w, w', hq, hnd, h => by
    rw [List.cons_append, List.nodup_cons] at hnd
    obtain ⟨p, _, h⟩ := cancelOutqueue_cons h
    set n := w.iscsi.cmdsn - if p.isCommand then 1 else 0
    set v := (w.modify (·.setOutqueue rest)).modify (·.setCmdsn n) with hv
    have hthin : Thins w (w.modify (·.setOutqueue rest)) :=
      thins_setOutqueue (hq ▸ List.sublist_cons_self ..)
    have hk₁ : Keeps (w.modify (·.setOutqueue rest)) v := keeps_modify rfl rfl (.inl rfl) rfl
    have hk₂ := hk₁.trans (keeps_called v a p scsiStatusCancelled)
    have hk₃ := hk₂.trans (keeps_release (a := a) (by
      rw [hk₂.sameOutqueue, hk₂.sameWaitpdu]
      exact hnd.1))
    obtain ⟨hthin', hout, hwait⟩ := cancelOutqueue_thins hk₃.sameOutqueue
      (by rw [hk₃.sameWaitpdu]; exact hnd.2) h
    exact ⟨(hthin.trans hk₃.toThins).trans hthin', hout, hwait.trans hk₃.sameWaitpdu⟩

/-- The loop over the former `waitpdu` of `iscsi_cancel_pdus`. -/
theorem cancelWaitpdu_keeps : ∀ {l : List Addr} {w w' : World}, w.iscsi.outqueue = [] →
    w.iscsi.waitpdu = [] → cancelWaitpdu l w = .ok w' → Keeps w w'
  | [], w, w', _, _, h => by
    obtain rfl := Except.ok.inj h
    exact .refl w
  | a :: rest, w, w', hout, hwait, h => by
    unfold cancelWaitpdu at h
    obtain ⟨w₁, h₁, h⟩ := Outcome.bind_eq_ok.1 h
    have hk := keeps_completePdu (by simp [hout, hwait]) h₁
    exact hk.trans (cancelWaitpdu_keeps (hk.sameOutqueue.trans hout)
      (hk.sameWaitpdu.trans hwait) h)

/-- No DATA-OUT is being sent. -/
def World.CurrentDone (w : World) : Prop :=
  ∀ d p, w.iscsi.outqueueCurrent = some d → w.pdus d = some p → p.opcode ≠ iscsiPduDataOut

/-- **`iscsi_cancel_pdus` keeps the invariant** unless a DATA-OUT is being sent. -/
theorem OwnerInv.cancelPdus (hi : OwnerInv w) (hgood : w.CurrentDone)
    (h : iscsiCancelPdus w = .ok w') : OwnerInv w' := by
  unfold iscsiCancelPdus at h
  obtain ⟨w₁, h₁, h⟩ := Outcome.bind_eq_ok.1 h
  obtain ⟨hthin₁, hout₁, _⟩ := cancelOutqueue_thins rfl hi.nodup h₁
  have hthin₂ := thins_setWaitpdu (w := w₁) (List.nil_sublist _)
  have hk := cancelWaitpdu_keeps (w := w₁.modify (·.setWaitpdu [])) hout₁ rfl h
  have hthin := (hthin₁.trans hthin₂).trans hk.toThins
  refine hi.thin hthin fun b k _ _ hkd => ?_
  obtain ⟨d, hd, r, hr, hop, _⟩ := hkd
  have hempty : w'.iscsi.outqueue = [] := hk.sameOutqueue.trans hout₁
  rw [hempty, List.append_nil] at hd
  have hmem : d ∈ w'.iscsi.addrs := List.mem_append_right _ hd
  obtain ⟨p, hp⟩ := Option.isSome_iff_exists.1 (hi.live d (hthin.mem_addrs hmem))
  rcases hthin.current with hc | hc
  · rw [Option.mem_toList, hc] at hd
    exact absurd ((hthin.alike d hmem p r hp hr).opcode.symm.trans hop) (hgood d p hd hp)
  · rw [hc] at hd
    cases hd

end

end Libiscsi
