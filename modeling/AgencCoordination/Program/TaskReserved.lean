import AgencCoordination.Program.Prelude
import AgencCoordination.Program.State
import AgencCoordination.Foundations.Bytes

/-!
# The reserved bytes of a task

`Task` keeps what was added after its layout was fixed in `_reserved: [u8; 16]`, one field next to
the other at offsets written by hand.

* **`Reserved`** — the sixteen bytes, with one accessor for each field.
* **`ReservedWrite`** — the writers: five setters and `increment_claim_generation`.
* **`Task.reserved`** — the bytes of a task.
-/

namespace AgencCoordination

open Foundations Foundations.Bytes

/-- `Task::_reserved`. -/
abbrev Reserved := Vector UInt8 16

/-- `u8::from` of a `bool`. -/
def byteOfBool (b : Bool) : UInt8 := if b then 1 else 0

namespace Reserved

/-! ## Accessors -/

/-- `Task::task_schema`: byte 0. -/
def taskSchema (r : Reserved) : UInt8 := r[0]

/-- `Task::live_submissions`: byte 1. -/
def liveSubmissions (r : Reserved) : UInt8 := r[1]

/-- `Task::worker_slash_pending`: byte 2. -/
def workerSlashPending (r : Reserved) : Bool := r[2] != 0

/-- `Task::claim_generation`: bytes 3 to 10, a little-endian `u64`. -/
def claimGeneration (r : Reserved) : ℕ :=
  ofLittleEndian [r[3], r[4], r[5], r[6], r[7], r[8], r[9], r[10]]

/-- `Task::peer_settlement_pending`: byte 11. -/
def peerSettlementPending (r : Reserved) : Bool := r[11] != 0

/-- `Task::validate_reserved_fields`: the flags are canonical and the padding is zero. -/
def validateReservedFields (r : Reserved) : Bool :=
  decide (r[2] ≤ 1) && decide (r[11] ≤ 1) && decide (r[12] ≤ 1) &&
    (r[13] == 0 && r[14] == 0 && r[15] == 0)

/-- `Task::rating_fee_qualified`: byte 12. -/
def ratingFeeQualified (r : Reserved) : Bool := r[12] == 1 && r.validateReservedFields

/-! ## Writers -/

/-- `Task::set_task_schema`. -/
def setTaskSchema (r : Reserved) (schema : UInt8) : Reserved := r.set 0 schema

/-- `Task::set_live_submissions`. -/
def setLiveSubmissions (r : Reserved) (count : UInt8) : Reserved := r.set 1 count

/-- `Task::set_worker_slash_pending`. -/
def setWorkerSlashPending (r : Reserved) (pending : Bool) : Reserved :=
  r.set 2 (byteOfBool pending)

/-- `Task::set_peer_settlement_pending`. -/
def setPeerSettlementPending (r : Reserved) (pending : Bool) : Reserved :=
  r.set 11 (byteOfBool pending)

/-- `Task::record_rating_fee`. -/
def recordRatingFee (r : Reserved) (protocolFee : ℕ) (independentSolFee : Bool) : Reserved :=
  if independentSolFee = true ∧ minRatingProtocolFeeLamports ≤ protocolFee then r.set 12 1 else r

/-- `_reserved[3..11].copy_from_slice(bytes)`. -/
def copyGeneration (r : Reserved) (bytes : List UInt8) : Reserved :=
  Vector.ofFn fun i => if 3 ≤ i.val ∧ i.val < 11 then bytes.getD (i.val - 3) 0 else r[i]

/-- `Task::increment_claim_generation`. -/
def incrementClaimGeneration (r : Reserved) : Result Reserved := do
  let next ← addU64 r.claimGeneration 1
  .ok (r.copyGeneration (littleEndian 8 next))

end Reserved

/-- A write to the reserved bytes of a task. -/
inductive ReservedWrite
  | setTaskSchema (schema : UInt8)
  | setLiveSubmissions (count : UInt8)
  | setWorkerSlashPending (pending : Bool)
  | setPeerSettlementPending (pending : Bool)
  | recordRatingFee (protocolFee : ℕ) (independentSolFee : Bool)
  | incrementClaimGeneration
  deriving DecidableEq

/-- The bytes after a write. -/
def ReservedWrite.run (r : Reserved) : ReservedWrite → Result Reserved
  | .setTaskSchema schema => .ok (r.setTaskSchema schema)
  | .setLiveSubmissions count => .ok (r.setLiveSubmissions count)
  | .setWorkerSlashPending pending => .ok (r.setWorkerSlashPending pending)
  | .setPeerSettlementPending pending => .ok (r.setPeerSettlementPending pending)
  | .recordRatingFee protocolFee independentSolFee =>
      .ok (r.recordRatingFee protocolFee independentSolFee)
  | .incrementClaimGeneration => r.incrementClaimGeneration

/-! ## The bytes of a task -/

/-- The bytes of a task, all but the claim generation. -/
def Task.reservedFlags (task : Task) : Reserved :=
  #v[UInt8.ofNat task.taskSchema, UInt8.ofNat task.liveSubmissions,
    byteOfBool task.workerSlashPending, 0, 0, 0, 0, 0, 0, 0, 0,
    byteOfBool task.peerSettlementPending, byteOfBool task.ratingFeeQualified, 0, 0, 0]

/-- `Task::_reserved`, as the account stores it. -/
def Task.reserved (task : Task) : Reserved :=
  task.reservedFlags.copyGeneration (littleEndian 8 task.claimGeneration)

end AgencCoordination
