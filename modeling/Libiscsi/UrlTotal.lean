import Libiscsi.UrlCorrect
import Libiscsi.ReconnectSettings

/-!
# What the parser of URLs answers

`iscsi_parse_url` answers every string but those with an argument whose value it reads without
having looked for one, or for which it writes to the context without having looked for that, and
those that leave no room for the NUL of `str` where the parser looks for it (`urlAnswers_iff`). An
argument that is refused ends the parser, so what stands behind it does no harm.
-/

namespace Libiscsi

open CString

/-! ## Answers -/

/-- A value with a property is returned, or NULL once an error is recorded. -/
def Answers {α : Type} (P : α → Prop) (x : UrlM α) (iscsi : Option Context) : Prop :=
  match x iscsi with
  | .ok a _ => P a
  | .error f _ => ∃ text, f = .error text

/-- The strings leave room for a NUL in their fields. -/
def IscsiUrl.Terminated (u : IscsiUrl) : Prop :=
  ∀ s ∈ [u.portal, u.target, u.user, u.passwd, u.targetUser, u.targetPasswd],
    s.length ≤ maxStringSize

section
variable {α β : Type} {P : α → Prop} {iscsi : Option Context}

theorem answers_pure {a : α} (h : P a) : Answers P (pure a) iscsi := h

theorem answers_error (text : CStr) : Answers P (throw (.error text)) iscsi := ⟨text, rfl⟩

theorem not_answers_throw {f : UrlFailure} (h : ∀ text, f ≠ .error text) :
    ¬Answers P (throw f) iscsi := by
  rintro ⟨text, heq⟩
  exact h text heq

theorem unterminated_ne_error (text : CStr) : UrlFailure.unterminated ≠ .error text := by
  intro h
  cases h

theorem answers_ok {x : UrlM α} {a : α} {iscsi' : Option Context} (h : x iscsi = .ok a iscsi') :
    Answers P x iscsi ↔ P a := by
  unfold Answers
  rw [h]

theorem answers_of_error {x : UrlM α} {e : UrlFailure} {iscsi' : Option Context}
    (h : x iscsi = .error e iscsi') : Answers P x iscsi ↔ ∃ text, e = .error text := by
  unfold Answers
  rw [h]

/-- After a step that succeeds, the rest has to answer. -/
theorem answers_bind_ok {x : UrlM β} {f : β → UrlM α} {b : β} {iscsi' : Option Context}
    (h : x iscsi = .ok b iscsi') : Answers P (x >>= f) iscsi ↔ Answers P (f b) iscsi' := by
  have hbind : (x >>= f) iscsi = f b iscsi' := by
    change EStateM.bind x f iscsi = _
    unfold EStateM.bind
    rw [h]
  unfold Answers
  rw [hbind]

/-- After a step that fails, nothing is done. -/
theorem bind_error {x : UrlM β} {f : β → UrlM α} {e : UrlFailure} {iscsi' : Option Context}
    (h : x iscsi = .error e iscsi') : (x >>= f) iscsi = .error e iscsi' := by
  change EStateM.bind x f iscsi = _
  unfold EStateM.bind
  rw [h]

/-- What answers whatever comes before it leaves the matter to that. -/
theorem answers_bind {x : UrlM β} {f : β → UrlM α} (h : ∀ b iscsi, Answers P (f b) iscsi) :
    Answers P (x >>= f) iscsi ↔ Answers (fun _ => True) x iscsi := by
  cases hx : x iscsi with
  | ok b iscsi' =>
    rw [answers_bind_ok hx, answers_ok hx]
    exact iff_of_true (h b iscsi') trivial
  | error e iscsi' => rw [answers_of_error (bind_error hx), answers_of_error hx]

end

/-! ## Arguments -/

/-- The key of an argument. -/
def argKey (arg : CStr) : CStr := (cut 0x3d arg).1

/-- The value of an argument, if it has one. -/
def argVal (arg : CStr) : Option CStr := (cut 0x3d arg).2

/-- The keys of a digest. -/
def digestKeys : List CStr := [ofString "header_digest", ofString "data_digest"]

/-- The values of `auth`. -/
def authValues : List CStr :=
  [ofString "md5", ofString "sha1", ofString "sha-256", ofString "sha3-256"]

/-- The values of a digest. -/
def digestValues : List CStr := [ofString "crc32c", ofString "none"]

/-- The keys whose value is read, and that write to the context. -/
def contextKeys : List CStr :=
  ofString "auth" :: ofString "LIBISCSI_RDMA_ACK_TIMEOUT" :: digestKeys

/-- A value that `auth` or a digest cannot have. -/
def UnknownValue (key value : CStr) : Prop :=
  key = ofString "auth" ∧ value ∉ authValues ∨ key ∈ digestKeys ∧ value ∉ digestValues

/-- An argument with a value that its key does not know. -/
def Refused (arg : CStr) : Prop :=
  ∃ value, argVal arg = some value ∧ UnknownValue (argKey arg) value

/-- An argument that reads no value that is not there, and writes to no context that is not
there. -/
def Harmless (iscsi : Option Context) (arg : CStr) : Prop :=
  argKey arg ∈ contextKeys → (argVal arg).isSome ∧ iscsi.isSome

/-- One of the arguments is refused, which is the last one only if the string has a NUL. Those
before it are harmless. -/
inductive OneRefused (iscsi : Option Context) (terminated : Bool) : List CStr → Prop where
  | here {arg : CStr} {rest : List CStr} :
      Refused arg → terminated = true ∨ rest ≠ [] → OneRefused iscsi terminated (arg :: rest)
  | later {arg : CStr} {rest : List CStr} :
      Harmless iscsi arg → OneRefused iscsi terminated rest →
        OneRefused iscsi terminated (arg :: rest)

/-- The arguments do no harm: one is refused, or all are harmless and end with the NUL. -/
def ArgsSafe (iscsi : Option Context) (terminated : Bool) (pieces : List CStr) : Prop :=
  OneRefused iscsi terminated pieces ∨
    terminated = true ∧ ∀ arg ∈ pieces, Harmless iscsi arg

/-! ### One argument -/

/-- What an argument with a key of the context does: it needs a value, and the context, unless the
value is refused. -/
structure SetsContext (key : CStr) (x : Option CStr → UrlM Unit) : Prop where
  none : x none = throw .nullDeref
  unknown : ∀ value, UnknownValue key value → ∃ text, x (some value) = throw (.error text)
  known : ∀ value, ¬UnknownValue key value → ∃ f, x (some value) = setContext f

theorem authArg_setsContext : SetsContext (ofString "auth") authArg where
  none := rfl
  unknown := by
    rintro value (⟨-, hvalue⟩ | ⟨hkey, -⟩)
    · simp only [authValues, List.mem_cons, List.not_mem_nil, or_false, not_or] at hvalue
      obtain ⟨hmd5, hsha1, hsha256, hsha3⟩ := hvalue
      unfold authArg argValue
      simp only [pure_bind, if_neg hmd5, if_neg hsha1, if_neg hsha256, if_neg hsha3]
      exact ⟨_, rfl⟩
    · exact absurd hkey (by decide)
  known := by
    intro value hknown
    have hvalue : value ∈ authValues := not_not.1 fun h => hknown (.inl ⟨rfl, h⟩)
    unfold authArg argValue
    rw [pure_bind]
    simp only [authValues, List.mem_cons, List.not_mem_nil, or_false] at hvalue
    rcases hvalue with rfl | rfl | rfl | rfl
    · exact ⟨_, if_pos rfl⟩
    · exact ⟨_, (if_neg (by decide)).trans (if_pos rfl)⟩
    · exact ⟨_, (if_neg (by decide)).trans ((if_neg (by decide)).trans (if_pos rfl))⟩
    · exact ⟨_, (if_neg (by decide)).trans ((if_neg (by decide)).trans
        ((if_neg (by decide)).trans (if_pos rfl)))⟩

theorem digestArg_setsContext {key : String} (hkey : ofString key ∈ digestKeys)
    (setDigest : Context → DigestMode → Context) :
    SetsContext (ofString key) (digestArg key · setDigest) where
  none := rfl
  unknown := by
    rintro value (⟨hauth, -⟩ | ⟨-, hvalue⟩)
    · rw [hauth] at hkey
      exact absurd hkey (by decide)
    · simp only [digestValues, List.mem_cons, List.not_mem_nil, or_false, not_or] at hvalue
      unfold digestArg argValue
      simp only [pure_bind, if_neg hvalue.1, if_neg hvalue.2]
      exact ⟨_, rfl⟩
  known := by
    intro value hknown
    have hvalue : value ∈ digestValues := not_not.1 fun h => hknown (.inr ⟨hkey, h⟩)
    unfold digestArg argValue
    simp only [pure_bind]
    simp only [digestValues, List.mem_cons, List.not_mem_nil, or_false] at hvalue
    rcases hvalue with rfl | rfl
    · exact ⟨_, if_pos rfl⟩
    · exact ⟨_, (if_neg (by decide)).trans (if_pos rfl)⟩

/-- The argument `LIBISCSI_RDMA_ACK_TIMEOUT`. -/
theorem rdmaArg_setsContext : SetsContext (ofString "LIBISCSI_RDMA_ACK_TIMEOUT") fun value => do
    let value ← argValue value
    setContext fun c => { c with rdmaAckTimeout := UInt8.ofInt (atoi value) } where
  none := rfl
  unknown := by
    rintro value (⟨hkey, -⟩ | ⟨hkey, -⟩)
    · exact absurd hkey (by decide)
    · exact absurd hkey (by decide)
  known := fun _ _ => ⟨_, rfl⟩

/-- A key of the context sets the context, and nothing else. -/
theorem urlArg_contextKey {key : CStr} (h : key ∈ contextKeys) (args : UrlArgs) :
    ∃ x, SetsContext key x ∧
      ∀ value, urlArg args key value = (x value >>= fun _ => pure args) := by
  simp only [contextKeys, digestKeys, List.mem_cons, List.not_mem_nil, or_false] at h
  rcases h with rfl | rfl | rfl | rfl
  · refine ⟨_, authArg_setsContext, fun value => ?_⟩
    simp +decide only [urlArg, if_true, if_false, pure_bind]
  · refine ⟨_, rdmaArg_setsContext, fun value => ?_⟩
    simp +decide only [urlArg, if_true, if_false, pure_bind, bind_assoc]
  · refine ⟨_, digestArg_setsContext List.mem_cons_self iscsiSetHeaderDigest, fun value => ?_⟩
    simp +decide only [urlArg, if_true, if_false, pure_bind]
  · refine ⟨_, digestArg_setsContext (List.mem_cons_of_mem _ List.mem_cons_self)
      iscsiSetDataDigest, fun value => ?_⟩
    simp +decide only [urlArg, if_true, if_false, pure_bind]

/-- The other keys only set the arguments. -/
theorem urlArg_otherKey {key : CStr} (h : key ∉ contextKeys) (args : UrlArgs)
    (value : Option CStr) : ∃ args', urlArg args key value = pure args' := by
  simp only [contextKeys, digestKeys, List.mem_cons, List.not_mem_nil, or_false, not_or] at h
  obtain ⟨hauth, hrdma, hheader, hdata⟩ := h
  simp only [urlArg, hauth, hrdma, hheader, hdata, if_false, pure_bind]
  split
  · exact ⟨_, rfl⟩
  split
  · exact ⟨_, rfl⟩
  split <;> exact ⟨_, rfl⟩

/-- What one argument does to the context: it is refused, or it is harmless and the next one finds
a context if this one found one, or a NULL pointer is dereferenced. -/
theorem urlArg_cases (args : UrlArgs) (arg : CStr) (iscsi : Option Context) :
    (Refused arg ∧ ∃ text iscsi',
      urlArg args (argKey arg) (argVal arg) iscsi = .error (.error text) iscsi') ∨
    (¬Refused arg ∧ Harmless iscsi arg ∧ ∃ args' iscsi', iscsi'.isSome = iscsi.isSome ∧
      urlArg args (argKey arg) (argVal arg) iscsi = .ok args' iscsi') ∨
    (¬Refused arg ∧ ¬Harmless iscsi arg ∧ ∃ iscsi',
      urlArg args (argKey arg) (argVal arg) iscsi = .error .nullDeref iscsi') := by
  by_cases hkey : argKey arg ∈ contextKeys
  · obtain ⟨x, ⟨hnone, hunknown, hknown⟩, hx⟩ := urlArg_contextKey hkey args
    rw [hx]
    cases hvalue : argVal arg with
    | none =>
      refine .inr (.inr ⟨?_, fun h => ?_, iscsi, ?_⟩)
      · rintro ⟨value, hsome, -⟩
        rw [hvalue] at hsome
        cases hsome
      · have := (h hkey).1
        rw [hvalue] at this
        cases this
      · rw [hnone]
        rfl
    | some value =>
      have hrefused : Refused arg ↔ UnknownValue (argKey arg) value := by
        constructor
        · rintro ⟨value', hsome, hvalue'⟩
          rw [hvalue] at hsome
          cases hsome
          exact hvalue'
        · exact fun h => ⟨value, hvalue, h⟩
      by_cases hval : UnknownValue (argKey arg) value
      · obtain ⟨text, htext⟩ := hunknown value hval
        refine .inl ⟨hrefused.2 hval, text, iscsi, ?_⟩
        rw [htext]
        rfl
      obtain ⟨f, hf⟩ := hknown value hval
      rw [hf]
      cases iscsi with
      | none =>
        exact .inr (.inr ⟨fun h => hval (hrefused.1 h),
          fun h => Bool.false_ne_true (h hkey).2, none, rfl⟩)
      | some c =>
        exact .inr (.inl ⟨fun h => hval (hrefused.1 h), fun _ => ⟨by rw [hvalue]; rfl, rfl⟩,
          args, some (f c), rfl, rfl⟩)
  · obtain ⟨args', hargs⟩ := urlArg_otherKey hkey args (argVal arg)
    refine .inr (.inl ⟨?_, fun h => absurd h hkey, args', iscsi, rfl, by rw [hargs]; rfl⟩)
    rintro ⟨value, -, ⟨hauth, -⟩ | ⟨hdigest, -⟩⟩
    · exact hkey (hauth ▸ List.mem_cons_self)
    · exact hkey (List.mem_cons_of_mem _ (List.mem_cons_of_mem _ hdigest))

/-! ### All arguments -/

/-- Whether the arguments do harm depends on the context only by its being there. -/
theorem argsSafe_congr {iscsi iscsi' : Option Context} (h : iscsi'.isSome = iscsi.isSome)
    {terminated : Bool} {pieces : List CStr} :
    ArgsSafe iscsi' terminated pieces ↔ ArgsSafe iscsi terminated pieces := by
  have hmono : ∀ {a b : Option Context}, a.isSome = b.isSome →
      ArgsSafe a terminated pieces → ArgsSafe b terminated pieces := by
    intro a b hab hsafe
    have harmless : ∀ arg, Harmless a arg → Harmless b arg := fun arg harg hkey =>
      ⟨(harg hkey).1, hab ▸ (harg hkey).2⟩
    cases hsafe with
    | inl hrefuses =>
      refine .inl ?_
      induction hrefuses with
      | here hrefused hend => exact .here hrefused hend
      | later harg _ ih => exact .later (harmless _ harg) ih
    | inr hall => exact .inr ⟨hall.1, fun arg harg => harmless _ (hall.2 arg harg)⟩
  exact ⟨hmono h, hmono h.symm⟩

/-- A harmless argument leaves the matter to those behind it. -/
theorem argsSafe_cons {iscsi : Option Context} {terminated : Bool} {arg : CStr}
    {rest : List CStr} (hrefused : ¬Refused arg) (harmless : Harmless iscsi arg) :
    ArgsSafe iscsi terminated (arg :: rest) ↔ ArgsSafe iscsi terminated rest := by
  constructor
  · rintro (hrefuses | ⟨hend, hall⟩)
    · cases hrefuses with
      | here h _ => exact absurd h hrefused
      | later _ h => exact .inl h
    · exact .inr ⟨hend, fun a ha => hall a (List.mem_cons_of_mem _ ha)⟩
  · rintro (hrefuses | ⟨hend, hall⟩)
    · exact .inl (.later harmless hrefuses)
    · exact .inr ⟨hend, List.forall_mem_cons.2 ⟨harmless, hall⟩⟩

/-- An argument that is neither refused nor harmless does harm. -/
theorem not_argsSafe_cons {iscsi : Option Context} {terminated : Bool} {arg : CStr}
    {rest : List CStr} (hrefused : ¬Refused arg) (harmless : ¬Harmless iscsi arg) :
    ¬ArgsSafe iscsi terminated (arg :: rest) := by
  rintro (hrefuses | ⟨-, hall⟩)
  · cases hrefuses with
    | here h _ => exact hrefused h
    | later h _ => exact harmless h
  · exact harmless (hall arg List.mem_cons_self)

/-- The last argument of a string that goes on. -/
theorem not_argsSafe_last {iscsi : Option Context} {arg : CStr} :
    ¬ArgsSafe iscsi false [arg] := by
  rintro (hrefuses | ⟨hend, -⟩)
  · cases hrefuses with
    | here _ h => exact h.elim Bool.false_ne_true fun hne => hne rfl
    | later _ h => cases h
  · cases hend

/-- The empty argument is harmless. -/
theorem harmless_nil (iscsi : Option Context) : ¬Refused [] ∧ Harmless iscsi [] := by
  refine ⟨?_, fun h => absurd h (by decide)⟩
  rintro ⟨value, hvalue, -⟩
  cases hvalue

/-- Where a string is cut, and what its pieces are. -/
theorem cut_splitOn (c : UInt8) (s : CStr) :
    cut c s = (s, none) ∧ s.splitOn c = [s] ∨
      ∃ before rest, cut c s = (before, some rest) ∧ s.splitOn c = before :: rest.splitOn c := by
  by_cases h : c ∈ s
  · obtain ⟨before, rest, rfl, hbefore⟩ := List.eq_append_cons_of_mem h
    exact .inr ⟨before, rest, cut_append hbefore rest,
      List.splitOn_append_cons_self_of_not_mem hbefore rest⟩
  · exact .inl ⟨cut_of_notMem h, List.splitOn_eq_singleton h⟩

/-- The loop over the arguments answers exactly if they do no harm. By induction on the string,
which is cut behind its first argument. -/
theorem urlArgs_answers (terminated : Bool) : ∀ (n : Nat) (tmp : CStr) (args : UrlArgs)
    (iscsi : Option Context), tmp.length < n →
      (Answers (fun _ => True) (urlArgs terminated tmp args) iscsi ↔
        ArgsSafe iscsi terminated (tmp.splitOn 0x26)) := by
  intro n
  induction n with
  | zero => exact fun _ _ _ h => absurd h (Nat.not_lt_zero _)
  | succ n ih =>
    intro tmp args iscsi hn
    rw [urlArgs]
    by_cases htmp : tmp = []
    · obtain ⟨hrefused, harmless⟩ := harmless_nil iscsi
      rw [if_pos htmp, htmp, List.splitOn_nil]
      cases terminated with
      | false => exact iff_of_false (not_answers_throw unterminated_ne_error) not_argsSafe_last
      | true =>
        exact iff_of_true (answers_pure trivial)
          (.inr ⟨rfl, List.forall_mem_singleton.2 harmless⟩)
    rw [if_neg htmp]
    split
    · rename_i arg next hcut
      obtain ⟨hnone, -⟩ | ⟨arg', next', hsome, hsplit⟩ := cut_splitOn 0x26 tmp
      · rw [hnone] at hcut
        cases hcut
      rw [hsome] at hcut
      cases hcut
      have hlen : next.length < n := lt_of_lt_of_le (length_cut hsome) (Nat.lt_succ_iff.1 hn)
      rw [hsplit]
      obtain ⟨hrefused, text, iscsi', hrun⟩ | ⟨hrefused, harmless, args', iscsi', hctx, hrun⟩ |
        ⟨hrefused, harmless, iscsi', hrun⟩ := urlArg_cases args arg iscsi
      · refine iff_of_true ((answers_of_error (bind_error hrun)).2 ⟨text, rfl⟩)
          (.inl (.here hrefused ?_))
        exact .inr (List.splitOn_ne_nil _ _)
      · rw [argsSafe_cons hrefused harmless, ← argsSafe_congr hctx, ← ih next args' iscsi' hlen]
        exact answers_bind_ok hrun
      · refine iff_of_false (fun h => ?_) (not_argsSafe_cons hrefused harmless)
        obtain ⟨text, htext⟩ := (answers_of_error (bind_error hrun)).1 h
        cases htext
    · rename_i arg hcut
      obtain ⟨hnone, hsplit⟩ | ⟨arg', next', hsome, -⟩ := cut_splitOn 0x26 tmp
      · rw [hnone] at hcut
        cases hcut
        rw [hsplit]
        cases terminated with
        | false => exact iff_of_false (not_answers_throw unterminated_ne_error) not_argsSafe_last
        | true =>
          rw [if_pos rfl]
          obtain ⟨hrefused, text, iscsi', hrun⟩ | ⟨-, harmless, args', iscsi', -, hrun⟩ |
            ⟨hrefused, harmless, iscsi', hrun⟩ := urlArg_cases args tmp iscsi
          · exact iff_of_true ((answers_of_error hrun).2 ⟨text, rfl⟩)
              (.inl (.here hrefused (.inl rfl)))
          · exact iff_of_true ((answers_ok hrun).2 trivial)
              (.inr ⟨rfl, List.forall_mem_singleton.2 harmless⟩)
          · refine iff_of_false (fun h => ?_) (not_argsSafe_cons hrefused harmless)
            obtain ⟨text, htext⟩ := (answers_of_error hrun).1 h
            cases htext
      · rw [hsome] at hcut
        cases hcut

/-! ## The parser -/

/-- What the loop makes of a string is no longer than it. -/
theorem length_decoded_le (s : CStr) : (decoded s).length ≤ s.length := by
  fun_induction decoded s with
  | case1 => exact le_rfl
  | case2 b s _ ih => exact Nat.succ_le_succ ih
  | case3 b _ hi lo x y s ih =>
    simp only [List.length_cons]
    omega
  | case4 => simp only [List.length_cons]; omega
  | case5 => exact le_rfl

theorem length_first_append_le (s rest : List UInt8) :
    (first (s ++ 0 :: rest)).length ≤ s.length := by
  unfold first
  induction s with
  | nil => exact le_rfl
  | cons b s ih =>
    rw [List.cons_append, List.takeWhile_cons]
    split
    · exact Nat.succ_le_succ ih
    · exact Nat.zero_le _

/-- The field of the target is decoded within its buffer, whatever stands in it. -/
theorem iscsiDecodeUrlString_answers (s : CStr) :
    ∃ buf, iscsiDecodeUrlString (urlField s) = .ok buf ∧ (first buf).length ≤ maxStringSize := by
  have hcopy := length_strncpy s maxStringSize
  have hlen : (urlField s).length = maxStringSize + 1 := by
    unfold urlField
    rw [List.length_append, List.length_replicate]
    omega
  have hzero : 0 ∈ urlField s :=
    List.mem_append_right _ (List.mem_replicate.2 ⟨by omega, rfl⟩)
  obtain ⟨t, rest, hsplit, ht⟩ := List.eq_append_cons_of_mem hzero
  rw [hsplit, List.length_append, List.length_cons] at hlen
  obtain ⟨post, hloop⟩ := @decodeLoop_eq (t ++ 0 :: rest).length t [] rest ht
    (by rw [List.length_append, List.length_cons]; omega)
  rw [hsplit]
  refine ⟨_, hloop, (length_first_append_le _ _).trans ((length_decoded_le t).trans ?_)⟩
  omega

/-- The form of the target is checked, and what is missing is reported. -/
theorem urlTarget_error {url portal : CStr} {e : UrlFailure} (h : urlTarget url portal = .error e) :
    ∃ text, e = .error text := by
  unfold urlTarget at h
  split at h
  · exact ⟨_, (Except.error.inj h).symm⟩
  split at h
  · exact ⟨_, (Except.error.inj h).symm⟩
  split at h
  · exact ⟨_, (Except.error.inj h).symm⟩
  split at h
  · exact ⟨_, (Except.error.inj h).symm⟩
  · cases h

/-- The strings that are returned fit their fields. -/
theorem urlResult_terminated {args : UrlArgs} {portal : CStr} {buf : List UInt8}
    {user passwd : Option CStr} {l : Int} (h : (first buf).length ≤ maxStringSize) :
    (urlResult args portal buf user passwd l).Terminated := by
  have hcopy : ∀ s : CStr, (strncpy s maxStringSize).length ≤ maxStringSize := fun s =>
    length_strncpy s _
  unfold urlResult IscsiUrl.Terminated
  cases bothGiven user passwd with
  | none => simp [h, hcopy]
  | some pair =>
    cases bothGiven args.targetUser args.targetPasswd with
    | none => simp [h, hcopy]
    | some targetPair => simp [h, hcopy]

/-- The decoder leaves a string that fits its field to what follows. -/
theorem decode_answers {f : List UInt8 → UrlM IscsiUrl} {iscsi : Option Context} (target : CStr)
    (h : ∀ buf, (first buf).length ≤ maxStringSize → Answers IscsiUrl.Terminated (f buf) iscsi) :
    Answers IscsiUrl.Terminated
      (MonadExcept.ofExcept (iscsiDecodeUrlString (urlField target)) >>= f) iscsi := by
  obtain ⟨buf, hbuf, hlen⟩ := iscsiDecodeUrlString_answers target
  rw [hbuf, ofExcept_ok_bind]
  exact h buf hlen

/-- What follows the arguments always answers. -/
theorem urlParts_answers (url portal : CStr) (full : Bool) (user passwd : Option CStr)
    (args : UrlArgs) (iscsi : Option Context) : Answers IscsiUrl.Terminated (do
      let (portal, target, l) ←
        if full then MonadExcept.ofExcept (urlTarget url portal)
        else pure ((cut 0x2f portal).1, [], 0)
      let target ← MonadExcept.ofExcept (iscsiDecodeUrlString (urlField target))
      let iscsiUrl := urlResult args portal target user passwd l
      modify (Option.map (applyUrl iscsiUrl args.usn))
      pure iscsiUrl) iscsi := by
  cases full with
  | false =>
    simp only [Bool.false_eq_true, if_false, pure_bind]
    generalize ([] : CStr) = target
    exact decode_answers target fun buf hlen => urlResult_terminated hlen
  | true =>
    simp only [if_true]
    cases htarget : urlTarget url portal with
    | error e =>
      obtain ⟨text, rfl⟩ := urlTarget_error htarget
      exact answers_error text
    | ok parts =>
      simp only [ofExcept_ok_bind]
      exact decode_answers _ fun buf hlen => urlResult_terminated hlen

/-- Where the scheme is missing, or the arguments do no harm. -/
def UrlSafe (env : UrlEnv) (url : CStr) (iscsi : Option Context) : Prop :=
  hasKey url "iscsi://" = false ∧ hasKey url "iser://" = false ∨
    match urlCopy env (url.drop (if hasKey url "iser://" then 7 else 8)) with
    | (str, terminated) =>
      match (cut 0x3f str).2 with
      | none => terminated = true
      | some query => ArgsSafe iscsi terminated (query.splitOn 0x26)

/-- **The parser answers exactly if the scheme is missing, or the arguments do no harm.** -/
theorem urlAnswers_iff (env : UrlEnv) (url : CStr) (full : Bool) (iscsi : Option Context) :
    Answers IscsiUrl.Terminated (iscsiParseUrl env url full) iscsi ↔ UrlSafe env url iscsi := by
  unfold iscsiParseUrl UrlSafe
  by_cases hscheme : hasKey url "iscsi://" = false ∧ hasKey url "iser://" = false
  · refine iff_of_true ?_ (.inl hscheme)
    rw [hscheme.1, hscheme.2]
    cases full with
    | false => exact answers_error _
    | true => exact answers_error _
  have hguard : (!hasKey url "iscsi://" && !hasKey url "iser://") = false := by
    cases h : hasKey url "iscsi://" <;> cases h' : hasKey url "iser://" <;> simp_all
  simp only [hguard]
  rw [or_iff_right hscheme]
  obtain ⟨str, terminated⟩ := urlCopy env (url.drop (if hasKey url "iser://" then 7 else 8))
  simp only
  cases (cut 0x3f str).2 with
  | none =>
    cases terminated with
    | false => exact iff_of_false (not_answers_throw unterminated_ne_error) Bool.false_ne_true
    | true => exact iff_of_true (urlParts_answers ..) rfl
  | some query =>
    exact (answers_bind (urlParts_answers _ _ _ _ _)).trans
      (urlArgs_answers terminated _ query _ iscsi (Nat.lt_succ_self _))

/-- The value of the argument `auth` is read in `iscsi://h?auth`, where there is none. -/
theorem auth_notAnswered : ¬∀ (env : UrlEnv) (url : CStr) (full : Bool) (iscsi : Option Context),
    Answers IscsiUrl.Terminated (iscsiParseUrl env url full) iscsi := by
  intro h
  have hargs : urlArgs true (ofString "auth") {} none = .error .nullDeref none := by
    rw [urlArgs]
    rfl
  have hrun : iscsiParseUrl {} (ofString "iscsi://h?auth") false none = .error .nullDeref none := by
    unfold iscsiParseUrl
    have hscheme : hasKey (ofString "iscsi://h?auth") "iscsi://" = true := by decide
    have hiser : hasKey (ofString "iscsi://h?auth") "iser://" = false := by decide
    have hcopy : urlCopy {} ((ofString "iscsi://h?auth").drop 8) = (ofString "h?auth", true) := by
      decide
    have hcut : cut 0x3f (ofString "h?auth") = (ofString "h", some (ofString "auth")) := by decide
    simp only [hscheme, hiser, Bool.not_true, Bool.false_and, Bool.false_eq_true, if_false, hcopy,
      hcut]
    exact bind_error hargs
  obtain ⟨text, htext⟩ := (answers_of_error hrun).1 (h {} (ofString "iscsi://h?auth") false none)
  cases htext

end Libiscsi
