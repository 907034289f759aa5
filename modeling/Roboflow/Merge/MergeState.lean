import Roboflow.Library.Kv
import Roboflow.Tikv.Schema

/-! The merge record of `merge/schema.rs`, and what `merge/coordinator.rs` does to
it before and after a merge. -/
namespace Roboflow.Merge
open Library

inductive MergeStatus where
  | pending | inProgress | complete | failed
  deriving DecidableEq, Repr

structure MergeState where
  jobId : String
  status : MergeStatus
  expectedWorkers : Nat
  completedWorkers : Nat
  stagingPaths : Kv String String
  totalFrames : Nat
  mergedFrames : Nat
  outputPath : String
  createdAt : Time
  updatedAt : Time
  error : Option String
  mergeWorker : Option String
  deriving DecidableEq

/-- `MergeResult` of the coordinator. -/
inductive MergeResult where
  | success (outputPath : String) (totalFrames : Nat)
  | notFound
  | notClaimed
  | notReady
  | failed (error : String)
  deriving DecidableEq

namespace MergeState

def new (jobId : String) (expectedWorkers : Nat) (outputPath : String) (now : Time) : MergeState where
  jobId := jobId
  status := .pending
  expectedWorkers := expectedWorkers
  completedWorkers := 0
  stagingPaths := .empty
  totalFrames := 0
  mergedFrames := 0
  outputPath := outputPath
  createdAt := now
  updatedAt := now
  error := none
  mergeWorker := none

/-- `MergeState::is_ready`. -/
def isReady (state : MergeState) : Bool :=
  state.expectedWorkers ≤ state.completedWorkers && state.status = .pending

/-- `MergeState::add_worker`; the frame total is a `u64`. -/
def addWorker (state : MergeState) (workerId stagingPath : String) (frameCount : Nat) (now : Time) :
    MergeState :=
  let paths := state.stagingPaths.put workerId stagingPath
  { state with
    stagingPaths := paths
    completedWorkers := paths.entries.length
    totalFrames := (state.totalFrames + frameCount) % 2 ^ 64
    updatedAt := now }

/-- `MergeState::start_merge`. -/
def startMerge (state : MergeState) (worker : String) (now : Time) : Except String MergeState :=
  if !state.isReady then .error "Cannot start merge: not all workers complete"
  else .ok { state with status := .inProgress, mergeWorker := some worker, updatedAt := now }

/-- How `complete_merge_with_status` and `fail_merge_with_status` close the record. -/
def close (state : MergeState) (result : MergeResult) (now : Time) : MergeState :=
  match result with
  | .success _ frames => { state with totalFrames := frames, status := .complete, updatedAt := now }
  | .failed error => { state with status := .failed, error := some error, updatedAt := now }
  | _ => state

end MergeState

/-- `get_or_create_merge_state`, on what its get returned. -/
def getOrCreate (stored : Option MergeState) (jobId : String) (expectedWorkers : Nat)
    (outputPath : String) (now : Time) : MergeState :=
  match stored with
  | some state => { state with expectedWorkers := expectedWorkers, outputPath := outputPath }
  | none => .new jobId expectedWorkers outputPath now

/-- `ensure_merge_ready`; in single-worker mode the output path is staged directly. -/
def ensureMergeReady (state : MergeState) (expectedWorkers : Nat) (outputPath : String) (now : Time) :
    Option MergeState :=
  if state.isReady then some state
  else if state.completedWorkers = 0 ∧ expectedWorkers = 1 then
    some (state.addWorker "direct" outputPath 0 now)
  else none

end Roboflow.Merge
