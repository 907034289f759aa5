import Roboflow.Tikv.Schema

/-! Work units, `batch/work_unit.rs`: the record a worker claims, and the three
mutations a claim goes through. -/
namespace Roboflow.Batch

structure WorkFile where
  url : String
  size : Nat
  modifiedAt : Option Time := none
  checksum : Option String := none
  deriving DecidableEq

inductive WorkUnitStatus where
  | pending | processing | complete | failed | dead | cancelled
  deriving DecidableEq, Repr

namespace WorkUnitStatus

def isTerminal : WorkUnitStatus → Bool
  | complete | dead | cancelled => true
  | _ => false

def isClaimable : WorkUnitStatus → Bool
  | pending | failed => true
  | _ => false

/-- `StateLifecycle::can_transition_to` for work units. -/
def canTransitionTo (current target : WorkUnitStatus) : Bool :=
  if current = target then true
  else match current with
    | pending => target = processing || target = failed || target = cancelled
    | processing => target = complete || target = failed || target = dead || target = cancelled
    | failed => target = processing || target = cancelled
    | complete | dead | cancelled => false

end WorkUnitStatus

structure WorkUnit where
  id : String
  batchId : String
  files : List WorkFile
  outputPath : String
  configHash : String
  status : WorkUnitStatus
  owner : Option String
  attempts : Nat
  maxAttempts : Nat
  createdAt : Time
  updatedAt : Time
  error : Option String
  priority : Int
  deriving DecidableEq

inductive WorkUnitError where
  | notClaimable (id : String) (status : WorkUnitStatus)
  | maxAttemptsExceeded (id : String) (maxAttempts : Nat)
  deriving DecidableEq

def defaultMaxAttempts : Nat := 3

namespace WorkUnit

/-- `WorkUnit::with_id`. -/
def withId (id batchId : String) (files : List WorkFile) (outputPath configHash : String)
    (now : Time) : WorkUnit where
  id := id
  batchId := batchId
  files := files
  outputPath := outputPath
  configHash := configHash
  status := .pending
  owner := none
  attempts := 0
  maxAttempts := defaultMaxAttempts
  createdAt := now
  updatedAt := now
  error := none
  priority := 0

def isClaimable (unit : WorkUnit) : Bool :=
  unit.status.isClaimable && unit.attempts < unit.maxAttempts

/-- The record a successful claim leaves behind. -/
def claimedBy (unit : WorkUnit) (workerId : String) (now : Time) : WorkUnit :=
  { unit with
    status := .processing
    owner := some workerId
    attempts := unit.attempts + 1
    updatedAt := now }

/-- `WorkUnit::claim`. The second test repeats part of the first. -/
def claim (unit : WorkUnit) (workerId : String) (now : Time) : Except WorkUnitError WorkUnit :=
  if !unit.isClaimable then .error (.notClaimable unit.id unit.status)
  else if unit.attempts ≥ unit.maxAttempts then
    .error (.maxAttemptsExceeded unit.id unit.maxAttempts)
  else .ok (unit.claimedBy workerId now)

/-- `WorkUnit::complete`: neither the status nor the owner is consulted. -/
def complete (unit : WorkUnit) (now : Time) : WorkUnit :=
  { unit with status := .complete, owner := none, updatedAt := now }

/-- `WorkUnit::fail`: the attempts used up decide between retry and death. -/
def fail (unit : WorkUnit) (error : String) (now : Time) : WorkUnit :=
  { unit with
    status := if unit.attempts ≥ unit.maxAttempts then .dead else .failed
    owner := none
    error := some error
    updatedAt := now }

/-! ### What the mutations guarantee -/

/-- A claim succeeds exactly on a claimable unit, and then uses one attempt. -/
theorem claim_ok_iff (unit : WorkUnit) :
    unit.claim workerId now = .ok claimed ↔
      unit.isClaimable = true ∧ claimed = unit.claimedBy workerId now := by
  unfold claim
  by_cases claimable : unit.isClaimable = true
  · have room : ¬ unit.attempts ≥ unit.maxAttempts := by
      simp only [isClaimable, Bool.and_eq_true, decide_eq_true_eq] at claimable
      omega
    simp [claimable, room, eq_comm]
  · simp [claimable]

theorem isClaimable_iff (unit : WorkUnit) :
    unit.isClaimable = true ↔
      (unit.status = .pending ∨ unit.status = .failed) ∧ unit.attempts < unit.maxAttempts := by
  simp only [isClaimable, Bool.and_eq_true, decide_eq_true_eq]
  cases unit.status <;> simp [WorkUnitStatus.isClaimable]

@[simp] theorem complete_status (unit : WorkUnit) : (unit.complete now).status = .complete := rfl
@[simp] theorem complete_attempts (unit : WorkUnit) :
    (unit.complete now).attempts = unit.attempts := rfl
@[simp] theorem complete_maxAttempts (unit : WorkUnit) :
    (unit.complete now).maxAttempts = unit.maxAttempts := rfl
@[simp] theorem fail_attempts (unit : WorkUnit) :
    (unit.fail message now).attempts = unit.attempts := rfl
@[simp] theorem fail_maxAttempts (unit : WorkUnit) :
    (unit.fail message now).maxAttempts = unit.maxAttempts := rfl

/-- A failure either leaves attempts for a retry or kills the unit. -/
theorem fail_status (unit : WorkUnit) (message : String) (now : Time) :
    ((unit.fail message now).status = .failed ∧ unit.attempts < unit.maxAttempts) ∨
      ((unit.fail message now).status = .dead ∧ unit.maxAttempts ≤ unit.attempts) := by
  simp only [fail]
  split
  · exact Or.inr ⟨rfl, by omega⟩
  · exact Or.inl ⟨rfl, by omega⟩

/-- Claiming takes a legal transition. -/
theorem claim_legal {unit : WorkUnit} (claimable : unit.isClaimable = true) :
    unit.status.canTransitionTo .processing = true := by
  rcases (unit.isClaimable_iff.mp claimable).1 with status | status <;> rw [status] <;> decide

/-- A unit being processed may fail, whichever way. -/
theorem fail_legal {unit stored : WorkUnit} (processing : stored.status = .processing) :
    stored.status.canTransitionTo (unit.fail message now).status = true := by
  rcases unit.fail_status message now with ⟨status, _⟩ | ⟨status, _⟩ <;>
    rw [processing, status] <;> decide

end WorkUnit

end Roboflow.Batch
