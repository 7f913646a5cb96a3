import Libiscsi.CdbCorrect
import Libiscsi.Lib.Bounded

/-!
# UNMAP

`scsi_cdb_unmap` (`lib/scsi-lowlevel.c`) and `iscsi_unmap_task` (`lib/iscsi-command.c`): the CDB
and the parameter data of a list of extents, when the allocations succeed. The number of bytes is an
`int` in the iovec, and has sixteen bits everywhere else.
-/

namespace Libiscsi

/-- `struct unmap_list`. -/
structure UnmapList where
  lba : UInt64
  num : UInt32
  deriving DecidableEq, Repr

/-- `scsi_cdb_unmap`. -/
def scsiCdbUnmap (anchor group : UInt32) (xferlen : UInt16) : ScsiTask :=
  let cdb := startCdb 10 0x42 (if anchor ≠ 0 then 0x01 else 0)
  let cdb := scsiSetUint16 (setGroup cdb 6 group) 7 xferlen
  { cdb, xferDir := if xferlen ≠ 0 then .write else .none, expxferlen := xferlen.toUInt32 }

/-- What `iscsi_unmap_task` sends: the task, the data, and the length in its iovec. -/
structure UnmapTask where
  task : ScsiTask
  data : List UInt8
  iovLen : Nat
  deriving DecidableEq, Repr

/-- The stores of the turn `i` of the loop of `iscsi_unmap_task`. -/
def setUnmap (data : List UInt8) (i : Nat) (u : UnmapList) : List UInt8 :=
  let data := scsiSetUint32 data (8 + 16 * i) (u.lba >>> 32).toUInt32
  let data := scsiSetUint32 data (8 + 16 * i + 4) (u.lba &&& 0xffffffff).toUInt32
  scsiSetUint32 data (8 + 16 * i + 8) u.num

/-- The loop of `iscsi_unmap_task`, from turn `i` on. -/
def setUnmaps (data : List UInt8) (i : Nat) : List UnmapList → List UInt8
  | [] => data
  | u :: list => setUnmaps (setUnmap data i u) (i + 1) list

/-- `iscsi_unmap_task`, up to the call of `iscsi_scsi_command_async`. `xferlen` is an `int`. -/
def iscsiUnmapTask (anchor group : UInt32) (list : List UnmapList) :
    Except Bounded.Fault UnmapTask :=
  let xferlen := 8 + list.length * 16
  if 2 ^ 31 ≤ xferlen then .error .overflow
  else
    let task := scsiCdbUnmap anchor group (UInt16.ofNat xferlen)
    let data := List.replicate xferlen 0
    let data := scsiSetUint16 data 0 (UInt16.ofNat (xferlen - 2))
    let data := scsiSetUint16 data 2 (UInt16.ofNat (xferlen - 8))
    .ok { task, data := setUnmaps data 0 list, iovLen := xferlen }

/-! ## What the target finds -/

/-- The parameter list length of the CDB. -/
def UnmapTask.parameterListLength (t : UnmapTask) : Nat := (scsiGetUint16 t.task.cdb 7).toNat

/-- The UNMAP data length. -/
def UnmapTask.dataLength (t : UnmapTask) : Nat := (scsiGetUint16 t.data 0).toNat

/-- The UNMAP block descriptor data length. -/
def UnmapTask.blockDescriptorDataLength (t : UnmapTask) : Nat := (scsiGetUint16 t.data 2).toNat

/-- The descriptors that the target finds: those that are whole in the bytes that the CDB announces
and in the length of the block descriptor data. -/
def UnmapTask.descriptors (t : UnmapTask) : List UnmapList :=
  let data := t.data.take t.parameterListLength
  (List.range (min t.blockDescriptorDataLength (data.length - 8) / 16)).map fun i =>
    { lba := scsiGetUint64 data (8 + 16 * i), num := scsiGetUint32 data (8 + 16 * i + 8) }

/-- All lengths are the same one. -/
structure UnmapTask.Consistent (t : UnmapTask) : Prop where
  dataLength : t.dataLength + 2 = t.parameterListLength
  blockDescriptorDataLength : t.blockDescriptorDataLength + 8 = t.parameterListLength
  iovLen : t.iovLen = t.parameterListLength
  expxferlen : t.task.expxferlen.toNat = t.parameterListLength

/-- The target finds the list, and the lengths are consistent. -/
def UnmapFaithful (anchor group : UInt32) (list : List UnmapList) : Prop :=
  ∃ t, iscsiUnmapTask anchor group list = .ok t ∧ t.descriptors = list ∧ t.Consistent

/-! ## The stores of the loop -/

section
variable {data : List UInt8} {i j : Nat} {u : UnmapList} {list : List UnmapList}

@[simp] theorem length_setUnmap : (setUnmap data i u).length = data.length := by
  simp [setUnmap]

@[simp] theorem length_setUnmaps : (setUnmaps data i list).length = data.length := by
  induction list generalizing data i with
  | nil => rfl
  | cons u list ih => rw [setUnmaps, ih, length_setUnmap]

/-- A descriptor that is set is read back. -/
theorem get_setUnmap (h : 16 * i + 24 ≤ data.length) :
    scsiGetUint64 (setUnmap data i u) (8 + 16 * i) = u.lba ∧
      scsiGetUint32 (setUnmap data i u) (8 + 16 * i + 8) = u.num := by
  unfold setUnmap scsiGetUint64
  rw [scsiGetUint32_setUint32 (by omega), scsiGetUint32_setUint32 (by omega),
    scsiGetUint32_set (by omega), scsiGetUint32_setUint32 (by omega),
    scsiGetUint32_set (by simp; omega), scsiGetUint32_set (by simp; omega)]
  exact ⟨uint64_halves u.lba, rfl⟩

/-- The loop does not change the bytes before the descriptor that is next. -/
theorem byte_setUnmaps (h : j < 8 + 16 * i) : byte (setUnmaps data i list) j = byte data j := by
  induction list generalizing data i with
  | nil => rfl
  | cons u list ih =>
    rw [setUnmaps, ih (by omega)]
    unfold setUnmap
    rw [byte_scsiSetUint32 (by omega), byte_scsiSetUint32 (by omega),
      byte_scsiSetUint32 (by omega)]

/-- The loop does not change a 16-bit field before the descriptor that is next. -/
theorem scsiGetUint16_setUnmaps (h : j + 2 ≤ 8 + 16 * i) :
    scsiGetUint16 (setUnmaps data i list) j = scsiGetUint16 data j := by
  unfold scsiGetUint16
  rw [byte_setUnmaps (by omega), byte_setUnmaps (by omega)]

/-- The loop does not change a 32-bit field before the descriptor that is next. -/
theorem scsiGetUint32_setUnmaps (h : j + 4 ≤ 8 + 16 * i) :
    scsiGetUint32 (setUnmaps data i list) j = scsiGetUint32 data j := by
  unfold scsiGetUint32
  rw [byte_setUnmaps (by omega), byte_setUnmaps (by omega), byte_setUnmaps (by omega),
    byte_setUnmaps (by omega)]

/-- The loop sets all descriptors: by induction on those that are left, since none of them changes
one that is set. -/
theorem get_setUnmaps (h : 16 * (i + list.length) + 8 ≤ data.length) :
    (List.range' i list.length).map (fun k =>
      ({ lba := scsiGetUint64 (setUnmaps data i list) (8 + 16 * k)
         num := scsiGetUint32 (setUnmaps data i list) (8 + 16 * k + 8) } : UnmapList)) = list := by
  induction list generalizing data i with
  | nil => rfl
  | cons u list ih =>
    rw [List.length_cons] at h
    obtain ⟨hlba, hnum⟩ := @get_setUnmap data i u (by omega)
    have hfirst : scsiGetUint64 (setUnmaps (setUnmap data i u) (i + 1) list) (8 + 16 * i) =
        u.lba := by
      rw [← hlba]
      unfold scsiGetUint64
      rw [scsiGetUint32_setUnmaps (by omega), scsiGetUint32_setUnmaps (by omega)]
    have hrest := @ih (setUnmap data i u) (i + 1) (by rw [length_setUnmap]; omega)
    rw [setUnmaps, List.length_cons, List.range'_succ, List.map_cons, hrest, hfirst,
      scsiGetUint32_setUnmaps (by omega), hnum]

end

/-! ## When the lengths are consistent -/

/-- What is sent for a list that is not too long for an `int`. -/
theorem iscsiUnmapTask_eq {anchor group : UInt32} {list : List UnmapList} {t : UnmapTask}
    (h : iscsiUnmapTask anchor group list = .ok t) :
    t.iovLen = 8 + list.length * 16 ∧ t.data.length = 8 + list.length * 16 ∧
      t.parameterListLength = (8 + list.length * 16) % 2 ^ 16 ∧
      t.task.expxferlen.toNat = (8 + list.length * 16) % 2 ^ 16 ∧
      t.dataLength = (6 + list.length * 16) % 2 ^ 16 ∧
      t.blockDescriptorDataLength = list.length * 16 % 2 ^ 16 ∧
      (List.range list.length).map (fun i =>
        ({ lba := scsiGetUint64 t.data (8 + 16 * i)
           num := scsiGetUint32 t.data (8 + 16 * i + 8) } : UnmapList)) = list := by
  unfold iscsiUnmapTask at h
  by_cases hlong : 2 ^ 31 ≤ 8 + list.length * 16
  · rw [if_pos hlong] at h
    cases h
  · rw [if_neg hlong] at h
    obtain rfl := Except.ok.inj h
    refine ⟨rfl, by simp, ?_, ?_, ?_, ?_, ?_⟩
    · have hcdb := scsiGetUint16_set (c := setGroup (startCdb 10 0x42
        (if anchor ≠ 0 then 0x01 else 0)) 6 group) (i := 7)
        (v := UInt16.ofNat (8 + list.length * 16)) (by simp [setGroup, startCdb])
      exact (congrArg UInt16.toNat hcdb).trans UInt16.toNat_ofNat'
    · exact UInt16.toNat_toUInt32 _ |>.trans UInt16.toNat_ofNat'
    · have hbytes : ∀ c : List UInt8, ∀ v w, 4 ≤ c.length →
          scsiGetUint16 (scsiSetUint16 (scsiSetUint16 c 0 v) 2 w) 0 = v := by
        intro c v w hc
        refine Eq.trans ?_ (scsiGetUint16_set (c := c) (i := 0) (v := v) (by omega))
        unfold scsiGetUint16
        rw [byte_scsiSetUint16 (i := 2) (by omega), byte_scsiSetUint16 (i := 2) (by omega)]
      unfold UnmapTask.dataLength
      rw [scsiGetUint16_setUnmaps (by omega), hbytes _ _ _ (by simp; omega), UInt16.toNat_ofNat']
      congr 1
      omega
    · unfold UnmapTask.blockDescriptorDataLength
      rw [scsiGetUint16_setUnmaps (by omega), scsiGetUint16_set (by simp; omega),
        UInt16.toNat_ofNat']
      congr 1
      omega
    · rw [List.range_eq_range']
      exact get_setUnmaps (by simp; omega)

/-- Consistent lengths are those of the list. -/
theorem length_le_of_consistent {anchor group : UInt32} {list : List UnmapList} {t : UnmapTask}
    (h : iscsiUnmapTask anchor group list = .ok t) (ht : t.Consistent) : list.length ≤ 4095 := by
  obtain ⟨hiov, -, hplen, -⟩ := iscsiUnmapTask_eq h
  have := ht.iovLen
  omega

/-- **An UNMAP is faithful exactly if its list has at most 4095 descriptors.** -/
theorem unmapFaithful_iff (anchor group : UInt32) (list : List UnmapList) :
    UnmapFaithful anchor group list ↔ list.length ≤ 4095 := by
  constructor
  · rintro ⟨t, ht, -, hc⟩
    exact length_le_of_consistent ht hc
  · intro hlen
    have hrun : ∃ t, iscsiUnmapTask anchor group list = .ok t := ⟨_, if_neg (by omega)⟩
    obtain ⟨t, ht⟩ := hrun
    obtain ⟨hiov, hdata, hplen, hexp, hudl, hbdl, hlist⟩ := iscsiUnmapTask_eq ht
    have htake : t.data.take t.parameterListLength = t.data := List.take_of_length_le (by omega)
    have hcount : min t.blockDescriptorDataLength (t.data.length - 8) / 16 = list.length := by
      omega
    refine ⟨t, ht, ?_, ⟨by omega, by omega, by omega, by omega⟩⟩
    unfold UnmapTask.descriptors
    simp only [htake, hcount]
    exact hlist

/-- The lengths of 4096 descriptors wrap: the CDB announces eight bytes. -/
theorem unmap_wraps : ¬ UnmapFaithful 0 0 (List.replicate 4096 { lba := 0, num := 1 }) := by
  rintro ⟨t, ht, -, hc⟩
  have := length_le_of_consistent ht hc
  rw [List.length_replicate] at this
  omega

end Libiscsi
