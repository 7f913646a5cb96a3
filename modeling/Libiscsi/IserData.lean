import Libiscsi.Command
import Libiscsi.DataInRead

/-!
# The data of an iSER task

What the iSER transport sends of the data of a write, and what it stores of those of a read
(`iser_send_command`, `iser_rcv_completion`). The buffer of a task has its expected transfer length,
while the copies go by its vectors, so they agree (`iserMoves_iff`) only where the lengths do. The
unsolicited DATA-OUTs of a write are sent without their data.
-/

namespace Libiscsi

/-! ## Sending -/

/-- What `iser_send_command` posts: the buffer of the task, the bytes of its second element, and
where in the buffer the advertised address is. -/
structure IserPosted where
  dataBuff : List UInt8
  payload : List UInt8 := []
  va : Option ℕ := none
  deriving DecidableEq, Repr

/-- The copies of `iser_prepare_write_cmd`, from an offset on. There is no result where one leaves
the buffer. -/
def iserCopyOut (mem : ℕ → UInt8) : List ScsiIovec → ℕ → List UInt8 → Option (List UInt8)
  | [], _, dataBuff => some dataBuff
  | x :: iov, offset, dataBuff =>
    if offset + x.iovLen ≤ dataBuff.length then
      iserCopyOut mem iov (offset + x.iovLen) (dataBuff.take offset ++
        ((List.range x.iovLen).map fun i => mem (x.iovBase + i)) ++
          dataBuff.drop (offset + x.iovLen))
    else none

/-- `iser_prepare_write_cmd`. A buffer of no bytes has no region, which is not looked for. -/
def iserPrepareWriteCmd (mem : ℕ → UInt8) (task : ScsiTask) (payloadLen : ℕ)
    (dataBuff : List UInt8) : Option IserPosted := do
  let iov ← task.iovectorOut.iov
  let dataBuff ← iserCopyOut mem iov 0 dataBuff
  if dataBuff = [] then none
  else some { dataBuff, payload := dataBuff.take payloadLen, va := some payloadLen }

/-- `iser_prepare_read_cmd`. -/
def iserPrepareReadCmd (dataBuff : List UInt8) : Option IserPosted :=
  if dataBuff = [] then none else some { dataBuff, va := some 0 }

/-- `iser_send_command`, with the flags of the PDU and what stands in its buffer. -/
def iserSendCommand (mem : ℕ → UInt8) (task : ScsiTask) (flags : UInt8) (payloadLen : ℕ)
    (dataBuff : List UInt8) : Option IserPosted :=
  if flags &&& 0x40 ≠ 0 then iserPrepareReadCmd dataBuff
  else if flags &&& 0x20 ≠ 0 then iserPrepareWriteCmd mem task payloadLen dataBuff
  else some { dataBuff }

/-- A DATA-OUT: its header, and the data it is sent with. -/
structure IserDataOut where
  offset : ℕ
  payloadLen : ℕ
  payload : List UInt8
  deriving DecidableEq, Repr

/-- The DATA-OUTs of `iscsi_send_data_out`, each with a buffer of its own for the same task. The
number bounds the turns. -/
def iserDataOuts (mem : ℕ → UInt8) (task : ScsiTask) (segment : UInt32) (dataBuff : List UInt8) :
    ℕ → UInt32 → UInt32 → Option (List IserDataOut)
  | fuel, offset, totLen =>
    if totLen > 0 then
      match fuel with
      | 0 => none
      | fuel + 1 => do
        let len := min totLen segment
        let flags := if totLen = len then iscsiPduScsiFinal else 0
        let posted ← iserSendCommand mem task flags len.toNat dataBuff
        let rest ← iserDataOuts mem task segment dataBuff fuel (offset + len) (totLen - len)
        some ({ offset := offset.toNat, payloadLen := len.toNat, payload := posted.payload } ::
          rest)
    else some []

/-- What is sent for a task: its command, and the unsolicited DATA-OUTs that follow it. -/
def iserSendTask (mem : ℕ → UInt8) (c : Context) (task : ScsiTask) (dataBuff : List UInt8) :
    Option (IserPosted × List IserDataOut) := do
  let payloadLen := immediateDataLen c task
  let posted ← iserSendCommand mem task (commandFlags c task) payloadLen.toNat dataBuff
  if unsolicitedFollows c task then
    let len := min task.expxferlen c.firstBurstLength - payloadLen
    let dataOuts ← iserDataOuts mem task c.targetMaxRecvDataSegmentLength dataBuff len.toNat
      payloadLen len
    some (posted, dataOuts)
  else some (posted, [])

/-! ## Receiving -/

/-- What is stored of the data of a read: bytes at addresses, or the `indata` of the PDU. -/
inductive StoredData where
  | vectors (bytes : List (ℕ × UInt8))
  | indata (bytes : List UInt8)
  deriving DecidableEq, Repr

/-- The copies of `iser_rcv_completion`, from an offset on. There is no result where one leaves the
buffer. -/
def iserCopyIn (dataBuff : List UInt8) : List ScsiIovec → ℕ → Option (List (ℕ × UInt8))
  | [], _ => some []
  | x :: iov, offset =>
    if offset + x.iovLen ≤ dataBuff.length then
      (iserCopyIn dataBuff iov (offset + x.iovLen)).map
        (((List.range x.iovLen).map (x.iovBase + ·)).zip (dataBuff.drop offset) ++ ·)
    else none

/-- The part of `iser_rcv_completion` that stores the data of a read. The `indata` that were
allocated for it have the expected transfer length. -/
def iserStore (task : ScsiTask) (dataBuff : List UInt8) : Option StoredData :=
  match task.iovectorIn.iov with
  | none => some (.indata (dataBuff.take task.expxferlen.toNat))
  | some iov => (iserCopyIn dataBuff iov 0).map .vectors

/-- What the TCP transport stores in vectors of the data of Data-Ins that follow each other, until
one does not fit and the connection is given up. -/
def tcpStoreVectors : ScsiIovector → List (List UInt8) → ℕ → List (ℕ × UInt8)
  | _, [], _ => []
  | v, seg :: segs, pos =>
    if seg = [] then tcpStoreVectors v segs pos
    else
      match iovectorSelect v pos seg.length with
      | (_, none) => []
      | (v, some sel) => (iovecAddrs sel).zip seg ++ tcpStoreVectors v segs (pos + seg.length)

/-- What the TCP transport stores. -/
def tcpStore (task : ScsiTask) (segs : List (List UInt8)) : StoredData :=
  match task.iovectorIn.iov with
  | none => .indata segs.flatten
  | some _ => .vectors (tcpStoreVectors (scsiTaskResetIov task.iovectorIn) segs 0)

/-! ## What is to be moved -/

/-- The data of a write are sent: the buffer has them, the immediate data, the DATA-OUTs and what is
left of the buffer from the advertised address on have each byte at its offset, and the DATA-OUTs
have the lengths they claim. -/
structure WriteMoved (data : List UInt8) (expxferlen : ℕ) (posted : IserPosted)
    (dataOuts : List IserDataOut) : Prop where
  dataBuff : posted.dataBuff = data.take expxferlen
  immediate : posted.payload = data.take posted.payload.length
  present : ∀ o < expxferlen, ∃ b, data[o]? = some b ∧ (posted.payload[o]? = some b ∨
    (∃ d ∈ dataOuts, d.offset ≤ o ∧ d.payload[o - d.offset]? = some b) ∨
    ∃ va ∈ posted.va, posted.payload.length ≤ o ∧
      posted.dataBuff[va + (o - posted.payload.length)]? = some b)
  dataOut : ∀ d ∈ dataOuts, d.payload.length = d.payloadLen

/-- The data that the target has for a read. -/
structure ReadData (expxferlen : ℕ) where
  bytes : List UInt8
  length_le : bytes.length ≤ expxferlen

/-- The data of a task are moved, whatever stood in its buffer: those of a write are sent, and those
of a read are stored as the TCP transport stores them, however the target cuts them. -/
def MovesData (mem : ℕ → UInt8) (c : Context) (task : ScsiTask)
    (data : ReadData task.expxferlen.toNat) : Prop :=
  ∀ stale : List UInt8, stale.length = task.expxferlen.toNat →
    match task.xferDir with
    | .none => True
    | .write => ∃ iov posted dataOuts, task.iovectorOut.iov = some iov ∧
        iserSendTask mem c task stale = some (posted, dataOuts) ∧
        WriteMoved (iovecBytes mem iov) task.expxferlen.toNat posted dataOuts
    | .read => ∀ posted, iserSendTask mem c task stale = some (posted, []) →
        ∀ segs : List (List UInt8), segs.flatten = data.bytes →
          iserStore task (data.bytes ++ posted.dataBuff.drop data.bytes.length) =
            some (tcpStore task segs)

/-- A write has as many bytes as are expected, at least one, and no unsolicited DATA-OUT. The target
has as many bytes for a read as its vectors, if they have any, or as are expected. -/
def MovesWhen (c : Context) (task : ScsiTask) (data : ReadData task.expxferlen.toNat) : Prop :=
  match task.xferDir with
  | .none => True
  | .write => task.expxferlen ≠ 0 ∧
      (∃ iov, task.iovectorOut.iov = some iov ∧ iovecLength iov = task.expxferlen.toNat) ∧
      unsolicitedFollows c task = false
  | .read => task.expxferlen = 0 ∨
      match task.iovectorIn.iov with
      | none => data.bytes.length = task.expxferlen.toNat
      | some iov => iovecLength iov = 0 ∨ iovecLength iov = data.bytes.length

/-! ## The copies -/

/-- The copies of a write stay inside the buffer exactly if the vectors are no longer than what is
left of it, and put their bytes there. -/
theorem iserCopyOut_eq (mem : ℕ → UInt8) {iov : List ScsiIovec} {offset : ℕ}
    {dataBuff : List UInt8} (hle : offset ≤ dataBuff.length) :
    iserCopyOut mem iov offset dataBuff =
      if offset + iovecLength iov ≤ dataBuff.length then
        some (dataBuff.take offset ++ iovecBytes mem iov ++
          dataBuff.drop (offset + iovecLength iov))
      else none := by
  induction iov generalizing offset dataBuff with
  | nil =>
    have hzero : iovecLength [] = 0 := rfl
    rw [hzero, Nat.add_zero, if_pos hle, iovecBytes_nil, List.append_nil, List.take_append_drop]
    rfl
  | cons x iov ih =>
    rw [iserCopyOut, iovecLength_cons]
    by_cases hfit : offset + x.iovLen ≤ dataBuff.length
    · rw [if_pos hfit]
      have hbytes : ((List.range x.iovLen).map fun i => mem (x.iovBase + i)).length = x.iovLen := by
        rw [List.length_map, List.length_range]
      have hfront : (dataBuff.take offset ++
          (List.range x.iovLen).map fun i => mem (x.iovBase + i)).length = offset + x.iovLen := by
        rw [List.length_append, List.length_take, hbytes, Nat.min_eq_left hle]
      have hlength : (dataBuff.take offset ++ ((List.range x.iovLen).map fun i =>
          mem (x.iovBase + i)) ++ dataBuff.drop (offset + x.iovLen)).length = dataBuff.length := by
        rw [List.length_append, hfront, List.length_drop]
        omega
      rw [ih (by rw [hlength]; exact hfit), hlength, ← Nat.add_assoc]
      by_cases hall : offset + x.iovLen + iovecLength iov ≤ dataBuff.length
      · rw [if_pos hall, if_pos hall, List.take_left' hfront, ← hfront, List.drop_append, hfront,
          List.drop_eq_nil_of_le (by rw [hfront]; omega), List.nil_append, List.drop_drop,
          iovecBytes_cons]
        simp only [List.append_assoc, Option.some.injEq, List.append_cancel_left_eq]
        congr 1
        omega
      · rw [if_neg hall, if_neg hall]
    · rw [if_neg hfit, if_neg (by omega)]

/-- A list that is paired with two, one after the other. -/
theorem zip_append_left {α β : Type*} {l l' : List α} {m : List β} (hle : l.length ≤ m.length) :
    (l ++ l').zip m = l.zip m ++ l'.zip (m.drop l.length) := by
  induction l generalizing m with
  | nil => rfl
  | cons a l ih =>
    cases m with
    | nil => cases hle
    | cons b m =>
      rw [List.cons_append, List.zip_cons_cons, ih (Nat.le_of_succ_le_succ hle)]
      rfl

/-- The copies of a read stay inside the buffer exactly if the vectors are no longer than what is
left of it, and take its bytes. -/
theorem iserCopyIn_eq {dataBuff : List UInt8} {iov : List ScsiIovec} {offset : ℕ}
    (hle : offset ≤ dataBuff.length) :
    iserCopyIn dataBuff iov offset =
      if offset + iovecLength iov ≤ dataBuff.length then
        some ((iovecAddrs iov).zip (dataBuff.drop offset))
      else none := by
  induction iov generalizing offset with
  | nil =>
    have hzero : iovecLength [] = 0 := rfl
    rw [hzero, Nat.add_zero, if_pos hle]
    rfl
  | cons x iov ih =>
    rw [iserCopyIn, iovecLength_cons]
    by_cases hfit : offset + x.iovLen ≤ dataBuff.length
    · rw [if_pos hfit, ih hfit, ← Nat.add_assoc]
      by_cases hall : offset + x.iovLen + iovecLength iov ≤ dataBuff.length
      · rw [if_pos hall, if_pos hall, Option.map_some, iovecAddrs_cons]
        have haddrs : ((List.range x.iovLen).map (x.iovBase + ·)).length = x.iovLen := by
          rw [List.length_map, List.length_range]
        rw [zip_append_left (by rw [haddrs, List.length_drop]; omega), haddrs, List.drop_drop]
      · rw [if_neg hall, if_neg hall]
        rfl
    · rw [if_neg hfit, if_neg (by omega)]

/-! ## The TCP transport -/

section
variable {v v' : ScsiIovector} {iov sel : List ScsiIovec} {segs : List (List UInt8)} {pos : ℕ}

/-- No more is stored than there is. -/
theorem length_tcpStoreVectors : (tcpStoreVectors v segs pos).length ≤ segs.flatten.length := by
  induction segs generalizing v pos with
  | nil => exact Nat.zero_le _
  | cons seg segs ih =>
    unfold tcpStoreVectors
    rw [List.flatten_cons, List.length_append]
    split
    · exact ih.trans (Nat.le_add_left _ _)
    · split
      · exact Nat.zero_le _
      · rw [List.length_append, List.length_zip]
        exact Nat.add_le_add (Nat.min_le_right _ _) ih

/-- Where a data segment does not fit, nothing of it is stored. -/
theorem tcpStoreVectors_short {seg : List UInt8} (hc : v.CursorOk) (hiov : v.iov = some iov)
    (hrange : pos + seg.length < 2 ^ 32) (hne : seg ≠ [])
    (hshort : iovecLength iov < pos + seg.length) : tcpStoreVectors v (seg :: segs) pos = [] := by
  unfold tcpStoreVectors
  rw [if_neg hne]
  cases hsel : iovectorSelect v pos seg.length with
  | mk v' r =>
    obtain ⟨-, -, hsome⟩ := iovectorSelect_spec (fun _ => 0) hc hiov hrange hsel
    cases r with
    | none => rfl
    | some sel =>
      have hle := (hsome sel rfl).2
      omega

/-- Nothing is stored in vectors that have no bytes. -/
theorem tcpStoreVectors_zero (hc : v.CursorOk) (hiov : v.iov = some iov)
    (hrange : pos + segs.flatten.length < 2 ^ 32) (hzero : iovecLength iov = 0) :
    tcpStoreVectors v segs pos = [] := by
  induction segs with
  | nil => rfl
  | cons seg segs ih =>
    rw [List.flatten_cons, List.length_append] at hrange
    by_cases hne : seg = []
    · unfold tcpStoreVectors
      rw [if_pos hne]
      exact ih (by omega)
    · have hpos := List.length_pos_iff.2 hne
      exact tcpStoreVectors_short hc hiov (by omega) hne (by omega)

/-- What fits is stored where its position says. -/
theorem tcpStoreVectors_fit (hc : v.CursorOk) (hiov : v.iov = some iov) (hpos : v.offset ≤ pos)
    (hfit : pos + segs.flatten.length ≤ iovecLength iov) (hsize : iovecLength iov < 2 ^ 32) :
    tcpStoreVectors v segs pos = ((iovecAddrs iov).drop pos).zip segs.flatten := by
  induction segs generalizing v pos with
  | nil => rw [List.flatten_nil, List.zip_nil_right, tcpStoreVectors]
  | cons seg segs ih =>
    rw [List.flatten_cons, List.length_append] at hfit
    rw [List.flatten_cons, tcpStoreVectors]
    by_cases hne : seg = []
    · rw [if_pos hne, hne, List.nil_append]
      exact ih hc hiov hpos (by omega)
    · have hcount := List.length_pos_iff.2 hne
      rw [if_neg hne]
      obtain ⟨v', sel, hsel, hpos'⟩ := iovectorSelect_finds pos seg.length hc hiov hpos hcount
        (by omega) hsize
      rw [hsel]
      have hspec := fun mem => iovectorSelect_spec mem hc hiov (by omega) hsel
      obtain ⟨hc', hiov', -⟩ := hspec fun _ => 0
      have haddrs : iovecAddrs sel = ((iovecAddrs iov).drop pos).take seg.length := by
        refine addrs_ext fun mem => ?_
        have hbytes := ((hspec mem).2.2 sel rfl).1
        rw [iovecBytes_eq_map, iovecBytes_eq_map] at hbytes
        rw [hbytes, List.map_take, List.map_drop]
      simp only
      have hlength : (((iovecAddrs iov).drop pos).take seg.length).length = seg.length := by
        rw [List.length_take, List.length_drop, length_iovecAddrs]
        omega
      rw [ih hc' hiov' (by omega) (by omega), haddrs, ← List.drop_drop, ← List.zip_append hlength,
        List.take_append_drop]

end

/-! ## What is moved -/

section
variable {mem : ℕ → UInt8} {c : Context} {task : ScsiTask}

/-- A DATA-OUT is sent without data. -/
theorem iserSendCommand_dataOut (payloadLen : ℕ) (dataBuff : List UInt8) (last : Prop)
    [Decidable last] : iserSendCommand mem task (if last then iscsiPduScsiFinal else 0) payloadLen
      dataBuff = some { dataBuff } := by
  by_cases hlast : last
  · rw [if_pos hlast]
    rfl
  · rw [if_neg hlast]
    rfl

/-- A command of a write is prepared as one. -/
theorem iserSendCommand_write (hdir : task.xferDir = .write) (payloadLen : ℕ)
    (dataBuff : List UInt8) : iserSendCommand mem task (commandFlags c task) payloadLen dataBuff =
      iserPrepareWriteCmd mem task payloadLen dataBuff := by
  have hflags : commandFlags c task = 0x21 ∨ commandFlags c task = 0xa1 := by
    unfold commandFlags
    rw [hdir]
    by_cases hmore : unsolicitedFollows c task = true
    · exact .inl (if_pos hmore)
    · exact .inr (if_neg hmore)
  rcases hflags with hflags | hflags
  · rw [hflags]
    rfl
  · rw [hflags]
    rfl

/-- A command of a read is prepared as one. -/
theorem iserSendCommand_read (hdir : task.xferDir = .read) (payloadLen : ℕ)
    (dataBuff : List UInt8) : iserSendCommand mem task (commandFlags c task) payloadLen dataBuff =
      iserPrepareReadCmd dataBuff := by
  have hflags : commandFlags c task = 0xc1 := by
    unfold commandFlags
    rw [hdir]
    rfl
  rw [hflags]
  rfl

/-- Where there are DATA-OUTs, one is sent without the data that it claims, or they do not end. -/
theorem iserDataOuts_short {segment : UInt32} {dataBuff : List UInt8} {fuel : ℕ}
    {offset totLen : UInt32} {dataOuts : List IserDataOut} (hpos : totLen > 0)
    (h : iserDataOuts mem task segment dataBuff fuel offset totLen = some dataOuts) :
    ∃ d ∈ dataOuts, d.payload.length ≠ d.payloadLen := by
  induction fuel generalizing offset totLen dataOuts with
  | zero =>
    unfold iserDataOuts at h
    rw [if_pos hpos] at h
    cases h
  | succ fuel ih =>
    unfold iserDataOuts at h
    rw [if_pos hpos] at h
    simp only [iserSendCommand_dataOut, Option.bind_eq_bind, Option.bind_some] at h
    obtain ⟨rest, hrest, h⟩ := Option.bind_eq_some_iff.1 h
    obtain rfl := Option.some.inj h
    have hmin : min totLen segment = if totLen ≤ segment then totLen else segment := rfl
    by_cases hzero : segment = 0
    · have hlen : min totLen segment = 0 := by
        rw [hmin, hzero, if_neg (UInt32.not_le.2 hpos)]
      rw [hlen, UInt32.sub_zero] at hrest
      obtain ⟨d, hd, hne⟩ := ih hpos hrest
      exact ⟨d, List.mem_cons_of_mem _ hd, hne⟩
    · refine ⟨_, List.mem_cons_self, ?_⟩
      have hne : min totLen segment ≠ 0 := by
        rw [hmin]
        split
        · exact (UInt32.ne_of_lt hpos).symm
        · exact hzero
      intro hlen
      exact hne (UInt32.toNat_inj.1 hlen.symm)

/-- What is posted for a write. -/
theorem iserPrepareWriteCmd_eq_some {payloadLen : ℕ} {stale : List UInt8} {posted : IserPosted} :
    iserPrepareWriteCmd mem task payloadLen stale = some posted ↔
      ∃ iov, task.iovectorOut.iov = some iov ∧ iovecLength iov ≤ stale.length ∧ stale ≠ [] ∧
        posted = ⟨iovecBytes mem iov ++ stale.drop (iovecLength iov),
          (iovecBytes mem iov ++ stale.drop (iovecLength iov)).take payloadLen,
          some payloadLen⟩ := by
  unfold iserPrepareWriteCmd
  cases hiov : task.iovectorOut.iov with
  | none =>
    refine iff_of_false (fun h => by cases h) ?_
    rintro ⟨iov, h, -⟩
    cases h
  | some iov =>
    have hcopy := @iserCopyOut_eq mem iov 0 stale (Nat.zero_le _)
    rw [Nat.zero_add, List.take_zero, List.nil_append] at hcopy
    simp only [Option.bind_eq_bind, Option.bind_some, hcopy]
    by_cases hfit : iovecLength iov ≤ stale.length
    · have hlength : (iovecBytes mem iov ++ stale.drop (iovecLength iov)).length =
          stale.length := by
        rw [List.length_append, length_iovecBytes, List.length_drop, Nat.add_sub_cancel' hfit]
      have hnil : iovecBytes mem iov ++ stale.drop (iovecLength iov) = [] ↔ stale = [] := by
        rw [← List.length_eq_zero_iff, hlength, List.length_eq_zero_iff]
      rw [if_pos hfit, Option.bind_some]
      by_cases hempty : stale = []
      · rw [if_pos (hnil.2 hempty)]
        refine iff_of_false (fun h => by cases h) ?_
        rintro ⟨-, -, -, hne, -⟩
        exact hne hempty
      · rw [if_neg (hnil.not.2 hempty)]
        constructor
        · intro h
          exact ⟨iov, rfl, hfit, hempty, (Option.some.inj h).symm⟩
        · rintro ⟨iov', hiov', -, -, rfl⟩
          obtain rfl := Option.some.inj hiov'
          rfl
    · rw [if_neg hfit]
      refine iff_of_false (fun h => by cases h) ?_
      rintro ⟨iov', hiov', hfit', -⟩
      obtain rfl := Option.some.inj hiov'
      exact hfit hfit'

/-- There are unsolicited data where they follow the command. -/
theorem unsolicited_pos (hmore : unsolicitedFollows c task = true) :
    min task.expxferlen c.firstBurstLength - immediateDataLen c task > 0 := by
  obtain ⟨-, -, hlen, hburst⟩ := of_decide_eq_true hmore
  have hlt : immediateDataLen c task < min task.expxferlen c.firstBurstLength := by
    have hmin : min task.expxferlen c.firstBurstLength =
        if task.expxferlen ≤ c.firstBurstLength then task.expxferlen else c.firstBurstLength := rfl
    rw [hmin]
    split
    · exact hlen
    · exact hburst
  have hnat := UInt32.lt_iff_toNat_lt.1 hlt
  refine UInt32.lt_iff_toNat_lt.2 ?_
  rw [UInt32.toNat_sub_of_le _ _ (UInt32.le_of_lt hlt)]
  exact Nat.sub_pos_of_lt hnat

/-- **The data of a write are moved exactly if it has as many bytes as are expected, at least one,
and no unsolicited DATA-OUT.** -/
theorem movesWrite_iff (hdir : task.xferDir = .write) {stale : List UInt8}
    (hstale : stale.length = task.expxferlen.toNat) :
    (∃ iov posted dataOuts, task.iovectorOut.iov = some iov ∧
      iserSendTask mem c task stale = some (posted, dataOuts) ∧
      WriteMoved (iovecBytes mem iov) task.expxferlen.toNat posted dataOuts) ↔
    task.expxferlen ≠ 0 ∧
      (∃ iov, task.iovectorOut.iov = some iov ∧ iovecLength iov = task.expxferlen.toNat) ∧
      unsolicitedFollows c task = false := by
  unfold iserSendTask
  simp only [iserSendCommand_write hdir]
  constructor
  · rintro ⟨iov, posted, dataOuts, hiov, h, hmoved⟩
    obtain ⟨posted', hposted, h⟩ := Option.bind_eq_some_iff.1 h
    obtain ⟨iov', hiov', hfit, hempty, hposted⟩ := iserPrepareWriteCmd_eq_some.1 hposted
    obtain rfl := Option.some.inj (hiov.symm.trans hiov')
    have hmore : unsolicitedFollows c task = false := by
      by_contra hmore
      rw [Bool.not_eq_false] at hmore
      rw [if_pos hmore] at h
      obtain ⟨dataOuts', hdata, h⟩ := Option.bind_eq_some_iff.1 h
      obtain ⟨rfl, rfl⟩ := Prod.mk.inj (Option.some.inj h)
      obtain ⟨d, hd, hne⟩ := iserDataOuts_short (unsolicited_pos hmore) hdata
      exact hne (hmoved.dataOut d hd)
    rw [if_neg (by rw [hmore]; exact Bool.false_ne_true)] at h
    obtain ⟨rfl, rfl⟩ := Prod.mk.inj (Option.some.inj h)
    refine ⟨fun hzero => ?_, ⟨iov, hiov, ?_⟩, hmore⟩
    · rw [hzero] at hstale
      exact hempty (List.length_eq_zero_iff.1 hstale)
    · have hlength := congrArg List.length hmoved.dataBuff
      rw [hposted] at hlength
      simp only [List.length_append, List.length_drop, List.length_take, length_iovecBytes]
        at hlength
      omega
  · rintro ⟨hpos, ⟨iov, hiov, htotal⟩, hmore⟩
    have hempty : stale ≠ [] := by
      rintro rfl
      exact hpos (UInt32.toNat_inj.1 hstale.symm)
    have hlength : (iovecBytes mem iov).length = task.expxferlen.toNat := by
      rw [length_iovecBytes, htotal]
    have hdrop : stale.drop (iovecLength iov) = [] := List.drop_eq_nil_of_le (by omega)
    have hposted := (@iserPrepareWriteCmd_eq_some mem task (immediateDataLen c task).toNat
      stale _).2 ⟨iov, hiov, by omega, hempty, rfl⟩
    rw [hdrop, List.append_nil] at hposted
    let posted : IserPosted := ⟨iovecBytes mem iov,
      (iovecBytes mem iov).take (immediateDataLen c task).toNat,
      some (immediateDataLen c task).toNat⟩
    refine ⟨iov, posted, [], hiov, ?_, ⟨?_, ?_, fun o ho => ?_, List.forall_mem_nil _⟩⟩
    · rw [hposted, hmore]
      rfl
    · exact (List.take_of_length_le hlength.le).symm
    · change (iovecBytes mem iov).take _ = (iovecBytes mem iov).take
        ((iovecBytes mem iov).take (immediateDataLen c task).toNat).length
      rw [List.length_take, List.take_eq_take_iff]
      omega
    · have ho' : o < (iovecBytes mem iov).length := by omega
      have hpayload : posted.payload.length =
          min (immediateDataLen c task).toNat (iovecBytes mem iov).length := List.length_take
      refine ⟨_, List.getElem?_eq_getElem ho', ?_⟩
      rw [hpayload]
      by_cases himm : o < (immediateDataLen c task).toNat
      · left
        rw [List.getElem?_take_of_lt himm]
        exact List.getElem?_eq_getElem ho'
      · refine .inr (.inr ⟨_, rfl, by omega, ?_⟩)
        have hindex : (immediateDataLen c task).toNat +
            (o - min (immediateDataLen c task).toNat (iovecBytes mem iov).length) = o := by
          omega
        rw [hindex]
        exact List.getElem?_eq_getElem ho'

/-- What is sent for a read. -/
theorem iserSendTask_read (hdir : task.xferDir = .read) (stale : List UInt8) :
    iserSendTask mem c task stale =
      if stale = [] then none else some ({ dataBuff := stale, va := some 0 }, []) := by
  have hmore : unsolicitedFollows c task = false := by
    unfold unsolicitedFollows
    rw [hdir]
    rfl
  unfold iserSendTask
  simp only [iserSendCommand_read hdir, hmore]
  unfold iserPrepareReadCmd
  by_cases hempty : stale = []
  · rw [if_pos hempty, if_pos hempty]
    rfl
  · rw [if_neg hempty, if_neg hempty]
    rfl

/-- What is stored in vectors that are no longer than the buffer. -/
theorem iserStore_vectors {iov : List ScsiIovec} (hiov : task.iovectorIn.iov = some iov)
    (dataBuff : List UInt8) : iserStore task dataBuff =
      if iovecLength iov ≤ dataBuff.length then some (.vectors ((iovecAddrs iov).zip dataBuff))
      else none := by
  have hcopy := @iserCopyIn_eq dataBuff iov 0 (Nat.zero_le _)
  rw [Nat.zero_add, List.drop_zero] at hcopy
  unfold iserStore
  rw [hiov]
  simp only [hcopy]
  by_cases hfit : iovecLength iov ≤ dataBuff.length
  · rw [if_pos hfit, if_pos hfit]
    rfl
  · rw [if_neg hfit, if_neg hfit]
    rfl

/-- What is read into the PDU is what TCP reads exactly if all of the expected bytes are sent. -/
theorem storesIndata_iff (hiov : task.iovectorIn.iov = none) {bytes stale : List UInt8}
    (hstale : stale.length = task.expxferlen.toNat) (hle : bytes.length ≤ task.expxferlen.toNat) :
    (∀ segs : List (List UInt8), segs.flatten = bytes →
      iserStore task (bytes ++ stale.drop bytes.length) = some (tcpStore task segs)) ↔
    bytes.length = task.expxferlen.toNat := by
  have hbuff : (bytes ++ stale.drop bytes.length).length = task.expxferlen.toNat := by
    rw [List.length_append, List.length_drop]
    omega
  unfold iserStore tcpStore
  simp only [hiov]
  constructor
  · intro h
    have hone := h [bytes] List.flatten_singleton
    simp only [List.flatten_singleton, Option.some.injEq, StoredData.indata.injEq] at hone
    have hlength := congrArg List.length hone
    rw [List.length_take, hbuff, Nat.min_self] at hlength
    exact hlength.symm
  · intro hlength segs hsegs
    rw [hsegs, hlength, List.drop_eq_nil_of_le hstale.le, List.append_nil,
      List.take_of_length_le hle]

/-- What is read into vectors is what TCP reads exactly if they have no room, or just the room for
what is sent. -/
theorem storesVectors_iff {iov : List ScsiIovec} (hiov : task.iovectorIn.iov = some iov)
    {bytes stale : List UInt8} (hstale : stale.length = task.expxferlen.toNat)
    (hle : bytes.length ≤ task.expxferlen.toNat) :
    (∀ segs : List (List UInt8), segs.flatten = bytes →
      iserStore task (bytes ++ stale.drop bytes.length) = some (tcpStore task segs)) ↔
    iovecLength iov = 0 ∨ iovecLength iov = bytes.length := by
  have hbuff : (bytes ++ stale.drop bytes.length).length = task.expxferlen.toNat := by
    rw [List.length_append, List.length_drop]
    omega
  have hsize : task.expxferlen.toNat < 2 ^ 32 := task.expxferlen.toNat_lt
  have hcursor : (scsiTaskResetIov task.iovectorIn).CursorOk := fun iov _ => rfl
  rw [iserStore_vectors hiov, hbuff]
  constructor
  · intro h
    have hone := h [bytes] List.flatten_singleton
    by_cases hfit : iovecLength iov ≤ task.expxferlen.toNat
    · rw [if_pos hfit] at hone
      unfold tcpStore at hone
      simp only [hiov, Option.some.injEq, StoredData.vectors.injEq] at hone
      have hlength := congrArg List.length hone
      rw [List.length_zip, length_iovecAddrs, hbuff, Nat.min_eq_left hfit] at hlength
      have hbound := @length_tcpStoreVectors (scsiTaskResetIov task.iovectorIn) [bytes] 0
      rw [List.flatten_singleton] at hbound
      by_cases hshort : iovecLength iov < bytes.length
      · left
        have hne : bytes ≠ [] := List.length_pos_iff.1 (by omega)
        rw [tcpStoreVectors_short hcursor hiov (by omega) hne (by omega)] at hlength
        exact hlength
      · right
        omega
    · rw [if_neg hfit] at hone
      cases hone
  · intro hlength segs hsegs
    have hfit : iovecLength iov ≤ task.expxferlen.toNat := by omega
    rw [if_pos hfit]
    unfold tcpStore
    simp only [hiov, Option.some.injEq, StoredData.vectors.injEq]
    rcases hlength with hzero | hequal
    · have haddrs : iovecAddrs iov = [] := by
        rw [← List.length_eq_zero_iff, length_iovecAddrs, hzero]
      rw [haddrs, tcpStoreVectors_zero hcursor hiov (by rw [hsegs]; omega) hzero]
      rfl
    · rw [tcpStoreVectors_fit hcursor hiov (Nat.zero_le 0) (by rw [hsegs]; omega) (by omega),
        hsegs, List.drop_zero]
      have hzip := @List.zip_append _ _ (iovecAddrs iov) [] bytes
        (stale.drop bytes.length) (by rw [length_iovecAddrs, hequal])
      rw [List.append_nil, List.zip_nil_left, List.append_nil] at hzip
      exact hzip

/-- **The data of a read are stored as by the TCP transport exactly if the target has as many bytes
as the vectors, or as are expected where there are none.** -/
theorem movesRead_iff (hdir : task.xferDir = .read) (data : ReadData task.expxferlen.toNat)
    {stale : List UInt8} (hstale : stale.length = task.expxferlen.toNat) :
    (∀ posted, iserSendTask mem c task stale = some (posted, []) →
      ∀ segs : List (List UInt8), segs.flatten = data.bytes →
        iserStore task (data.bytes ++ posted.dataBuff.drop data.bytes.length) =
          some (tcpStore task segs)) ↔
    task.expxferlen = 0 ∨ match task.iovectorIn.iov with
      | none => data.bytes.length = task.expxferlen.toNat
      | some iov => iovecLength iov = 0 ∨ iovecLength iov = data.bytes.length := by
  obtain ⟨bytes, hle⟩ := data
  rw [iserSendTask_read hdir]
  by_cases hempty : stale = []
  · rw [if_pos hempty]
    refine iff_of_true (fun posted h => by cases h) (.inl ?_)
    rw [hempty] at hstale
    exact UInt32.toNat_inj.1 hstale.symm
  rw [if_neg hempty]
  have hpos : task.expxferlen ≠ 0 := by
    intro hzero
    rw [hzero] at hstale
    exact hempty (List.length_eq_zero_iff.1 hstale)
  rw [or_iff_right hpos]
  have hstores : (∀ posted,
      some (({ dataBuff := stale, va := some 0 } : IserPosted), ([] : List IserDataOut)) =
        some (posted, []) → ∀ segs : List (List UInt8), segs.flatten = bytes →
        iserStore task (bytes ++ posted.dataBuff.drop bytes.length) = some (tcpStore task segs)) ↔
      ∀ segs : List (List UInt8), segs.flatten = bytes →
        iserStore task (bytes ++ stale.drop bytes.length) = some (tcpStore task segs) := by
    refine ⟨fun h => h _ rfl, fun h posted hposted => ?_⟩
    obtain ⟨rfl, -⟩ := Prod.mk.inj (Option.some.inj hposted)
    exact h
  refine hstores.trans ?_
  cases hiov : task.iovectorIn.iov with
  | none => exact storesIndata_iff hiov hstale hle
  | some iov => exact storesVectors_iff hiov hstale hle

end

/-- **The data of a task are moved exactly under the condition.** -/
theorem iserMoves_iff (mem : ℕ → UInt8) (c : Context) (task : ScsiTask)
    (data : ReadData task.expxferlen.toNat) :
    MovesData mem c task data ↔ MovesWhen c task data := by
  have hone : (List.replicate task.expxferlen.toNat (0 : UInt8)).length =
      task.expxferlen.toNat := List.length_replicate
  unfold MovesData MovesWhen
  cases hdir : task.xferDir with
  | none => exact iff_of_true (fun _ _ => trivial) trivial
  | write => exact ⟨fun h => (movesWrite_iff hdir hone).1 (h _ hone), fun h stale hstale =>
      (movesWrite_iff hdir hstale).2 h⟩
  | read => exact ⟨fun h => (movesRead_iff hdir data hone).1 (h _ hone), fun h stale hstale =>
      (movesRead_iff hdir data hstale).2 h⟩

/-- The vectors of a write that are longer than is expected are copied past the buffer. -/
theorem longVectors_notMoved : ¬∀ (mem : ℕ → UInt8) (c : Context) (task : ScsiTask)
    (data : ReadData task.expxferlen.toNat), MovesData mem c task data := by
  intro h
  let task : ScsiTask := {
    xferDir := .write
    expxferlen := 4
    iovectorOut := { iov := some [{ iovBase := 0, iovLen := 8 }] } }
  have hmoved := h (fun _ => 0) {} task ⟨[], Nat.zero_le _⟩ [0, 0, 0, 0] rfl
  obtain ⟨-, ⟨iov, hiov, hlength⟩, -⟩ := (@movesWrite_iff _ _ task rfl [0, 0, 0, 0] rfl).1 hmoved
  obtain rfl := Option.some.inj hiov
  exact absurd hlength (by decide)

end Libiscsi
