import Libiscsi.Types

/-!
# The vectors of a transfer

`iscsi_iovector_readv_writev` (`lib/socket.c`) chooses, of the vectors of a task, those that a
transfer of `count` bytes at the position `pos` passes to `readv` or `writev`, and moves the
cursor (`offset`, `consumed`) of the iovector to the first of them. The vectors it changes for the
call are restored after it, so that the choice and the cursor are all that is left of it.
-/

namespace Libiscsi

/-- The loop that skips the vectors before the position: the iovector with its cursor moved, and
what is left of the vectors with the position in the first of them. There is no such vector when
the position is past the end (`EINVAL`). -/
def iovectorHead : List ScsiIovec → ScsiIovector → Nat →
    ScsiIovector × Option (List ScsiIovec × Nat)
  | [], v, _ => (v, none)
  | x :: rest, v, pos =>
    if pos ≥ x.iovLen then
      iovectorHead rest
        { v with offset := v.offset + x.iovLen, consumed := v.consumed + 1 } (pos - x.iovLen)
    else (v, some (x :: rest, pos))

/-- The loop that looks for the last vector: the vectors that hold the first `len2` bytes, the
last one cut. There are none when the vectors hold fewer bytes (`EINVAL`). -/
def iovectorTail : List ScsiIovec → Nat → Option (List ScsiIovec)
  | [], _ => none
  | x :: rest, len2 =>
    if len2 > x.iovLen then (iovectorTail rest (len2 - x.iovLen)).map (x :: ·)
    else some [{ x with iovLen := len2 }]

/-- The iovector with its cursor moved, and the vectors that `iscsi_iovector_readv_writev` passes
to `readv` or `writev`; `none` stands for a return with `EINVAL`. The lengths of the sum
`pos + count` are those of `uint32_t`, and a first vector that would get a negative length is
refused by the system call. -/
def iovectorSelect (v : ScsiIovector) (pos count : Nat) :
    ScsiIovector × Option (List ScsiIovec) :=
  match v.iov with
  | none => (v, none)
  | some iov =>
    if pos < v.offset then (v, none)
    else if iov.length ≤ v.consumed then (v, none)
    else
      match iovectorHead (iov.drop v.consumed) v (pos - v.offset) with
      | (v, none) => (v, none)
      | (v, some (rest, pos)) =>
        match iovectorTail rest ((pos + count) % 2 ^ 32) with
        | none | some [] => (v, none)
        | some (x :: xs) =>
          if x.iovLen < pos then (v, none)
          else (v, some ({ iovBase := x.iovBase + pos, iovLen := x.iovLen - pos } :: xs))

/-- The bytes that vectors point to. -/
def iovecBytes (mem : Nat → UInt8) (iov : List ScsiIovec) : List UInt8 :=
  iov.flatMap fun x => (List.range x.iovLen).map fun i => mem (x.iovBase + i)

/-- `scsi_task_reset_iov`. -/
def scsiTaskResetIov (v : ScsiIovector) : ScsiIovector := { v with offset := 0, consumed := 0 }

/-- `scsi_task_set_iov_out`. -/
def scsiTaskSetIovOut (task : ScsiTask) (iov : List ScsiIovec) : ScsiTask :=
  { task with iovectorOut := { task.iovectorOut with iov := some iov } }

end Libiscsi
