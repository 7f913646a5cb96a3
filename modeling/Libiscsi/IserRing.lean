import Libiscsi.Lib.Ring
import Libiscsi.Lib.Outcome

/-!
# The receive buffers of the iSER transport

`iser_post_recvl`, `iser_post_recvm` and the part of `iser_rcv_completion` that posts buffers
(`lib/iser.c`), for one connection. The queue of the adapter stands beside what the code keeps: the
buffers that are posted, in their order. What is posted is always a segment of the ring that ends at
`rx_desc_head`. But a buffer is posted again before its message is processed, and after a failure
more buffers are posted than `rx_wr` has entries (`iserRx_iff`).
-/

namespace Libiscsi

open Ring

/-! ## The buffers -/

/-- `ISER_MIN_POSTED_RX`. -/
def iserMinPostedRx : ℕ := 512 >>> 2

/-- A buffer for a message. -/
inductive RxBuffer where
  /-- `login_resp_buf`. -/
  | login
  /-- An entry of `rx_descs`. -/
  | desc (i : ℕ)
  deriving DecidableEq, Repr

/-- The part of `struct iser_conn` that is about receiving, with the queue of the adapter. -/
structure IserRx where
  postRecvBufCount : Int := 0
  qpMaxRecvDtos : ℕ := 0
  minPostedRx : ℕ := 0
  rxDescHead : ℕ := 0
  posted : List RxBuffer := []
  deriving DecidableEq, Repr

/-- What the C program has no meaning for. -/
inductive RxFault where
  /-- `rx_wr` is written behind its end. -/
  | rxWr
  deriving DecidableEq, Repr

/-- What happens at a completion: whether the context is logged in, whether the descriptors can be
allocated and registered, and whether `ibv_post_recv` succeeds, which posts nothing if it fails. -/
structure RxEvent where
  isLoggedin : Bool
  allocated : Bool := true
  postOk : Bool := true
  deriving DecidableEq, Repr

namespace IserRx

/-- `iser_post_recvl`. -/
def postRecvl (c : IserRx) (ok : Bool) : Int × IserRx :=
  let c := { c with postRecvBufCount := c.postRecvBufCount + 1 }
  if ok then (0, { c with posted := c.posted ++ [.login] })
  else (-1, { c with postRecvBufCount := c.postRecvBufCount - 1 })

/-- `iser_post_recvm`. -/
def postRecvm (c : IserRx) (count : ℕ) (ok : Bool) : Except RxFault (Int × IserRx) :=
  if iserMinPostedRx < count then .error .rxWr
  else
    let buffers := (segment c.qpMaxRecvDtos c.rxDescHead count).map .desc
    let head := (c.rxDescHead + count) % c.qpMaxRecvDtos
    let c := { c with postRecvBufCount := c.postRecvBufCount + count }
    if ok then .ok (0, { c with posted := c.posted ++ buffers, rxDescHead := head })
    else .ok (-1, { c with postRecvBufCount := c.postRecvBufCount - count })

/-- `iser_alloc_rx_descriptors`, once the descriptors are registered. -/
def allocRxDescriptors (c : IserRx) (cmdsMax : ℕ) : IserRx :=
  { c with qpMaxRecvDtos := cmdsMax, minPostedRx := iserMinPostedRx, rxDescHead := 0 }

/-- `iser_rcv_completion`, with the buffer whose message is given to `iscsi_process_pdu`. -/
def rcvCompletion (c : IserRx) (b : RxBuffer) (e : RxEvent) :
    Except RxFault (IserRx × Option RxBuffer) :=
  let c := { c with postRecvBufCount := c.postRecvBufCount - 1 }
  if b ≠ .login then
    let empty := (c.qpMaxRecvDtos : Int) - c.postRecvBufCount
    if empty ≥ c.minPostedRx then do
      let (err, c) ← c.postRecvm empty.toNat e.postOk
      .ok (c, if err ≠ 0 then none else some b)
    else .ok (c, some b)
  else if e.isLoggedin then
    if !e.allocated then .ok (c, none)
    else do
      let (err, c) ← (c.allocRxDescriptors 255).postRecvm iserMinPostedRx e.postOk
      .ok (c, if err ≠ 0 then none else some b)
  else
    let (err, c) := c.postRecvl e.postOk
    .ok (c, if err ≠ 0 then none else some b)

/-- A message arrives in the first of the buffers that are posted, if there is one. -/
def step (c : IserRx) (e : RxEvent) : Except RxFault (IserRx × Option RxBuffer) :=
  match c.posted with
  | [] => .ok (c, none)
  | b :: posted => { c with posted }.rcvCompletion b e

/-- `iser_connected_handler`. -/
def connected (ok : Bool) : IserRx := (postRecvl {} ok).2

/-! ## Runs -/

/-- The counter says how many buffers are posted, none twice, and those of the ring are the segment
that ends at the head. -/
structure Good (c : IserRx) : Prop where
  count : c.postRecvBufCount = c.posted.length
  nodup : c.posted.Nodup
  ring : c.posted.filterMap (fun | .desc i => some i | .login => none) = [] ∨
    ∃ start m, c.posted = (segment c.qpMaxRecvDtos start m).map .desc ∧
      (start + m) % c.qpMaxRecvDtos = c.rxDescHead

/-- In every state of a run the buffers are as they should be, `rx_wr` is never left, and no message
is processed whose buffer is posted. -/
def RunGood : IserRx → List RxEvent → Prop
  | c, [] => c.Good
  | c, e :: es => c.Good ∧ ∃ c' processed, c.step e = .ok (c', processed) ∧
      (∀ b, processed = some b → b ∉ c'.posted) ∧ RunGood c' es

/-- A message in the login buffer comes when the context is logged in, or its buffer cannot be
posted again; one in the ring leaves less than `min_posted_rx` buffers to be posted, or as many, and
they cannot be posted. -/
def EventSafe (c : IserRx) (e : RxEvent) : Prop :=
  match c.posted with
  | [] => True
  | .login :: _ => e.isLoggedin = true ∨ e.postOk = false
  | .desc _ :: _ =>
    let empty := (c.qpMaxRecvDtos : Int) - (c.postRecvBufCount - 1)
    empty < c.minPostedRx ∨ empty = c.minPostedRx ∧ e.postOk = false

/-- The events of a run are safe, each in the state before it. -/
def EventsSafe : IserRx → List RxEvent → Prop
  | _, [] => True
  | c, e :: es => c.EventSafe e ∧ ∀ c' processed, c.step e = .ok (c', processed) → EventsSafe c' es

/-! ## The invariant -/

/-- Before the switch to the ring at most the login buffer is posted; after it, a segment of the
ring that ends at the head. -/
inductive Inv (c : IserRx) : Prop where
  | login (posted : c.posted = [.login]) (count : c.postRecvBufCount = 1)
  | none (posted : c.posted = []) (count : c.postRecvBufCount = 0)
  | ring (start m : ℕ) (size : c.qpMaxRecvDtos = 255) (min : c.minPostedRx = iserMinPostedRx)
      (posted : c.posted = (segment 255 start m).map .desc) (le : m ≤ 255)
      (head : c.rxDescHead = (start + m) % 255) (count : c.postRecvBufCount = m)

theorem nodup_desc {start m : ℕ} (h : m ≤ 255) :
    ((segment 255 start m).map RxBuffer.desc).Nodup :=
  (nodup_segment h).map fun _ _ heq => RxBuffer.desc.inj heq

theorem login_notMem (l : List ℕ) : RxBuffer.login ∉ l.map RxBuffer.desc := by
  intro hmem
  obtain ⟨i, -, hi⟩ := List.mem_map.1 hmem
  cases hi

variable {c : IserRx}

/-- A state with the invariant is good. -/
theorem Inv.good (hi : c.Inv) : c.Good := by
  cases hi with
  | login posted count =>
    refine ⟨by rw [posted, count]; rfl, by rw [posted]; exact List.nodup_singleton _, .inl ?_⟩
    rw [posted]
    rfl
  | none posted count =>
    refine ⟨by rw [posted, count]; rfl, by rw [posted]; exact List.nodup_nil, .inl ?_⟩
    rw [posted]
    rfl
  | ring start m size min posted le head count =>
    refine ⟨?_, by rw [posted]; exact nodup_desc le, .inr ⟨start, m, ?_, ?_⟩⟩
    · rw [posted, count, List.length_map, length_segment]
    · rw [posted, size]
    · rw [size, head]

theorem inv_connected (ok : Bool) : (connected ok).Inv := by
  cases ok with
  | false => exact .none rfl rfl
  | true => exact .login rfl rfl

/-- What happens to a buffer of the ring: no other one is posted, or all that are free, or more than
`rx_wr` has entries for. -/
theorem rcvCompletion_desc {start m : ℕ} (e : RxEvent) (size : c.qpMaxRecvDtos = 255)
    (min : c.minPostedRx = iserMinPostedRx)
    (posted : c.posted = (segment 255 (start + 1) m).map .desc)
    (head : c.rxDescHead = (start + (m + 1)) % 255) (count : c.postRecvBufCount = m + 1) :
    ((255 : Int) - m < 128 ∧ c.rcvCompletion (.desc (start % 255)) e =
      .ok ({ c with postRecvBufCount := m }, some (.desc (start % 255)))) ∨
    ((255 : Int) - m = 128 ∧ c.rcvCompletion (.desc (start % 255)) e =
      if e.postOk then .ok ({ c with postRecvBufCount := 255,
                                     posted := (segment 255 (start + 1) 255).map .desc,
                                     rxDescHead := (start + 1 + 255) % 255 },
        some (.desc (start % 255)))
      else .ok ({ c with postRecvBufCount := m }, none)) ∨
    ((255 : Int) - m > 128 ∧ c.rcvCompletion (.desc (start % 255)) e = .error .rxWr) := by
  have hmin : (c.minPostedRx : Int) = 128 := by
    rw [min]
    rfl
  have hcount : c.postRecvBufCount - 1 = m := by omega
  unfold rcvCompletion
  simp only [hcount, size, hmin, ne_eq, reduceCtorEq, not_false_eq_true, if_true]
  rcases lt_trichotomy ((255 : Int) - m) 128 with hlt | heq | hgt
  · exact .inl ⟨hlt, if_neg (by omega)⟩
  · refine .inr (.inl ⟨heq, ?_⟩)
    obtain rfl : m = 127 := by omega
    unfold postRecvm
    simp only
    rw [if_pos (by decide)]
    cases e.postOk with
    | false => rfl
    | true =>
      have hring : (segment 255 (start + 1) 127).map RxBuffer.desc ++
          (segment 255 c.rxDescHead 128).map RxBuffer.desc =
          (segment 255 (start + 1) 255).map RxBuffer.desc := by
        rw [head, segment_mod, ← List.map_append, show start + (127 + 1) = start + 1 + 127 by omega,
          segment_append]
      have hhead : (c.rxDescHead + 128) % 255 = (start + 1 + 255) % 255 := by omega
      have hempty : (((255 : ℕ) : Int) - ((127 : ℕ) : Int)).toNat = 128 := rfl
      rw [posted, hempty, hring, hhead, if_neg (by decide : ¬iserMinPostedRx < 128)]
      rfl
  · refine .inr (.inr ⟨hgt, ?_⟩)
    rw [if_pos (by omega)]
    unfold postRecvm
    rw [if_pos (by unfold iserMinPostedRx; omega)]
    rfl

/-- What happens to the login buffer: the ring is posted, or the buffer itself, or nothing. -/
theorem rcvCompletion_login (e : RxEvent) (posted : c.posted = [])
    (count : c.postRecvBufCount = 1) :
    ∃ c' processed, c.rcvCompletion .login e = .ok (c', processed) ∧ c'.Inv ∧
      ((∀ b, processed = some b → b ∉ c'.posted) ↔ e.isLoggedin = true ∨ e.postOk = false) := by
  obtain ⟨loggedin, allocated, ok⟩ := e
  have hcount : c.postRecvBufCount - 1 = 0 := by omega
  unfold rcvCompletion
  simp only [hcount]
  rw [if_neg (by simp)]
  cases loggedin with
  | false =>
    rw [if_neg Bool.false_ne_true]
    unfold postRecvl
    cases ok with
    | false =>
      refine ⟨_, none, rfl, .none posted rfl, iff_of_true (fun b hb => ?_) (.inr rfl)⟩
      cases hb
    | true =>
      refine ⟨_, some .login, rfl, .login ?_ rfl, iff_of_false (fun h => ?_) (by simp)⟩
      · simp only [posted]
        rfl
      · exact h .login rfl (List.mem_append_right _ List.mem_cons_self)
  | true =>
    rw [if_pos rfl]
    cases allocated with
    | false =>
      refine ⟨_, none, rfl, .none posted rfl, iff_of_true (fun b hb => ?_) (.inl rfl)⟩
      cases hb
    | true =>
      unfold postRecvm allocRxDescriptors
      rw [if_neg (by decide), if_neg (by decide)]
      cases ok with
      | false =>
        refine ⟨_, none, rfl, .none posted rfl, iff_of_true (fun b hb => ?_) (.inl rfl)⟩
        cases hb
      | true =>
        refine ⟨_, some .login, rfl, .ring 0 128 rfl rfl ?_ (by decide) rfl rfl,
          iff_of_true (fun b hb => ?_) (.inl rfl)⟩
        · simp only [posted]
          rfl
        · cases hb
          simp only [posted]
          exact login_notMem _

/-- What is said of a completion: it keeps the invariant, and it goes well exactly if it is safe. -/
def StepSpec (c : IserRx) (e : RxEvent) : Prop :=
  ((∃ c' processed, c.step e = .ok (c', processed) ∧
    (∀ b, processed = some b → b ∉ c'.posted)) ↔ c.EventSafe e) ∧
    ∀ c' processed, c.step e = .ok (c', processed) → c'.Inv

/-- A completion that has a result. -/
theorem stepSpec_ok {e : RxEvent} {c' : IserRx} {processed : Option RxBuffer}
    (hstep : c.step e = .ok (c', processed)) (hinv : c'.Inv)
    (hsafe : (∀ b, processed = some b → b ∉ c'.posted) ↔ c.EventSafe e) : c.StepSpec e := by
  refine ⟨⟨?_, fun h => ⟨c', processed, hstep, hsafe.2 h⟩⟩, fun c'' p hstep' => ?_⟩
  · rintro ⟨c'', p, hstep', hgood⟩
    rw [hstep] at hstep'
    obtain ⟨rfl, rfl⟩ := Prod.mk.inj (Except.ok.inj hstep')
    exact hsafe.1 hgood
  · rw [hstep] at hstep'
    obtain ⟨rfl, rfl⟩ := Prod.mk.inj (Except.ok.inj hstep')
    exact hinv

/-- Without a buffer nothing arrives. -/
theorem step_empty (hi : c.Inv) (posted : c.posted = []) (e : RxEvent) : c.StepSpec e := by
  have hstep : c.step e = .ok (c, none) := by
    unfold step
    rw [posted]
  have hsafe : c.EventSafe e := by
    unfold EventSafe
    rw [posted]
    trivial
  exact stepSpec_ok hstep hi (iff_of_true (fun b hb => by cases hb) hsafe)

/-- A completion in a descriptor of the ring, after which fewer than 128 entries are free, or 128,
or more. -/
theorem step_ring {start m : ℕ} (size : c.qpMaxRecvDtos = 255)
    (min : c.minPostedRx = iserMinPostedRx)
    (posted : c.posted = (segment 255 start (m + 1)).map .desc) (le : m + 1 ≤ 255)
    (head : c.rxDescHead = (start + (m + 1)) % 255) (count : c.postRecvBufCount = (m + 1 : ℕ))
    (e : RxEvent) : c.StepSpec e := by
  have hposted := posted
  rw [segment_succ, List.map_cons] at hposted
  have hmin : (c.minPostedRx : Int) = 128 := by
    rw [min]
    rfl
  have hcount : c.postRecvBufCount - 1 = m := by omega
  have hsafe : c.EventSafe e ↔ (255 : Int) - m < 128 ∨ (255 : Int) - m = 128 ∧
      e.postOk = false := by
    unfold EventSafe
    rw [hposted]
    simp only [size, hmin, hcount]
    rfl
  have hstep : c.step e =
      { c with posted := (segment 255 (start + 1) m).map .desc }.rcvCompletion
        (.desc (start % 255)) e := by
    unfold step
    rw [hposted]
  have hdistinct := @nodup_desc start _ le
  rw [segment_succ, List.map_cons, List.nodup_cons] at hdistinct
  have hhead : c.rxDescHead = (start + 1 + m) % 255 := by
    rw [head, Nat.add_assoc, Nat.add_comm 1]
  obtain ⟨hlt, hrcv⟩ | ⟨heq, hrcv⟩ | ⟨hgt, hrcv⟩ :=
    @rcvCompletion_desc { c with posted := (segment 255 (start + 1) m).map .desc } start m e
      size min rfl head (by rw [count]; rfl)
  · refine stepSpec_ok (hstep.trans hrcv)
      (.ring (start + 1) m size min rfl (by omega) hhead rfl)
      (iff_of_true (fun b hb => ?_) (hsafe.2 (.inl hlt)))
    cases hb
    exact hdistinct.1
  · cases hok : e.postOk with
    | false =>
      rw [hok] at hrcv
      refine stepSpec_ok (hstep.trans hrcv)
        (.ring (start + 1) m size min rfl (by omega) hhead rfl)
        (iff_of_true (fun b hb => ?_) (hsafe.2 (.inr ⟨heq, hok⟩)))
      cases hb
    | true =>
      rw [hok] at hrcv
      refine stepSpec_ok (hstep.trans hrcv)
        (.ring (start + 1) 255 size min rfl le_rfl rfl rfl)
        (iff_of_false (fun hgood => ?_) fun hs => ?_)
      · refine hgood _ rfl (List.mem_map.2 ⟨_, mem_segment_of_le le_rfl ?_, rfl⟩)
        exact Nat.mod_lt _ (by decide)
      · rcases hsafe.1 hs with hlt | ⟨-, hfalse⟩
        · omega
        · rw [hok] at hfalse
          cases hfalse
  · constructor
    · refine iff_of_false ?_ fun hs => ?_
      · rintro ⟨c', p, hok, -⟩
        rw [hstep, hrcv] at hok
        cases hok
      · rcases hsafe.1 hs with hlt | ⟨heq, -⟩ <;> omega
    · intro c' p hok
      rw [hstep, hrcv] at hok
      cases hok

/-- **A completion keeps the invariant, and it goes well exactly if it is safe.** -/
theorem step_spec (hi : c.Inv) (e : RxEvent) : c.StepSpec e := by
  cases hi with
  | none posted count => exact step_empty (.none posted count) posted e
  | login posted count =>
    obtain ⟨c', processed, hrcv, hinv, hiff⟩ :=
      @rcvCompletion_login { c with posted := [] } e rfl count
    have hstep : c.step e = .ok (c', processed) := by
      unfold step
      rw [posted]
      exact hrcv
    refine stepSpec_ok hstep hinv (hiff.trans ?_)
    unfold EventSafe
    rw [posted]
  | ring start m size min posted le head count =>
    cases m with
    | zero => exact step_empty (.ring start 0 size min posted le head count) posted e
    | succ m => exact step_ring size min posted le head count e

/-- The events from a state in which the invariant holds. By induction on the events. -/
theorem runGood_iff {es : List RxEvent} (hi : c.Inv) : c.RunGood es ↔ c.EventsSafe es := by
  induction es generalizing c with
  | nil => exact iff_of_true hi.good trivial
  | cons e es ih =>
    constructor
    · rintro ⟨-, c', processed, hstep, hprocessed, hrun⟩
      refine ⟨(step_spec hi e).1.1 ⟨c', processed, hstep, hprocessed⟩, fun c'' p hstep' => ?_⟩
      rw [hstep] at hstep'
      obtain ⟨rfl, rfl⟩ := Prod.mk.inj (Except.ok.inj hstep')
      exact (ih ((step_spec hi e).2 _ _ hstep)).1 hrun
    · rintro ⟨hsafe, hsafes⟩
      obtain ⟨c', processed, hstep, hprocessed⟩ := (step_spec hi e).1.2 hsafe
      exact ⟨hi.good, c', processed, hstep, hprocessed,
        (ih ((step_spec hi e).2 _ _ hstep)).2 (hsafes c' processed hstep)⟩

end IserRx

/-- **A run of a connection goes well, in all its states and steps, exactly if every completion of
it is safe.** -/
theorem iserRx_iff (ok : Bool) (es : List RxEvent) :
    (IserRx.connected ok).RunGood es ↔ (IserRx.connected ok).EventsSafe es :=
  IserRx.runGood_iff (IserRx.inv_connected ok)

/-- The first reply to a login is processed while its buffer is posted. -/
theorem firstReply_notGood : ¬∀ ok es, (IserRx.connected ok).RunGood es := by
  intro h
  obtain ⟨-, c', processed, hstep, hprocessed, -⟩ := h true [{ isLoggedin := false }]
  obtain ⟨rfl, rfl⟩ := Prod.mk.inj (Except.ok.inj hstep)
  exact hprocessed _ rfl List.mem_cons_self

end Libiscsi
