import Roboflow.Batch.WorkUnit

/-! Batches: the phases and the status record of `batch/status.rs`, the parts of a
spec that `batch/spec.rs` validates, and the pure core of the controller's
`reconcile_phase` and of the scanner's bookkeeping. -/
namespace Roboflow.Batch

inductive BatchPhase where
  | pending | discovering | running | merging | complete | failed | cancelled | suspending
  | suspended
  deriving DecidableEq, Repr

namespace BatchPhase

/-- `BatchPhase::is_active`. -/
def isActive : BatchPhase → Bool
  | discovering | running | merging => true
  | _ => false

/-- The `Display` text, which is also the phase's segment in index keys. -/
def text : BatchPhase → String
  | pending => "Pending"
  | discovering => "Discovering"
  | running => "Running"
  | merging => "Merging"
  | complete => "Complete"
  | failed => "Failed"
  | cancelled => "Cancelled"
  | suspending => "Suspending"
  | suspended => "Suspended"

/-- `StateLifecycle::can_transition_to` for batches. -/
def canTransitionTo (current target : BatchPhase) : Bool :=
  if current = target then true
  else match current with
    | pending => target = discovering || target = failed || target = cancelled
    | discovering => target = running || target = failed || target = cancelled
    | running => target = merging || target = failed || target = suspending || target = cancelled
    | merging => target = complete || target = failed
    | suspending => target = suspended || target = failed || target = cancelled
    | suspended => target = running || target = failed || target = cancelled
    | complete | failed | cancelled => false

end BatchPhase

/-- `DiscoveryStatus`, without the progress ratio, which nothing reads. -/
structure DiscoveryStatus where
  sourcesScanned : Nat := 0
  totalSources : Nat
  filesFound : Nat := 0
  lastError : Option String := none
  deriving DecidableEq

structure FailedWorkUnit where
  id : String
  sourceFile : String
  error : String
  retries : Nat
  failedAt : Time
  deriving DecidableEq

structure BatchStatus where
  phase : BatchPhase
  filesTotal : Nat
  filesCompleted : Nat
  filesFailed : Nat
  filesActive : Nat
  workUnitsTotal : Nat
  workUnitsCompleted : Nat
  workUnitsFailed : Nat
  workUnitsActive : Nat
  startedAt : Option Time
  completedAt : Option Time
  error : Option String
  updatedAt : Time
  discoveryStatus : Option DiscoveryStatus
  failedWorkUnits : List FailedWorkUnit
  deriving DecidableEq

namespace BatchStatus

def new (now : Time) : BatchStatus where
  phase := .pending
  filesTotal := 0
  filesCompleted := 0
  filesFailed := 0
  filesActive := 0
  workUnitsTotal := 0
  workUnitsCompleted := 0
  workUnitsFailed := 0
  workUnitsActive := 0
  startedAt := none
  completedAt := none
  error := none
  updatedAt := now
  discoveryStatus := none
  failedWorkUnits := []

/-- `BatchStatus::should_fail`. -/
def shouldFail (status : BatchStatus) (backoffLimit : Nat) : Bool :=
  backoffLimit < status.workUnitsFailed

/-- `BatchStatus::is_complete`. -/
def isComplete (status : BatchStatus) : Bool :=
  0 < status.workUnitsTotal &&
    status.workUnitsCompleted + status.workUnitsFailed = status.workUnitsTotal

/-- `BatchStatus::transition_to`: the transition table is not consulted. -/
def transitionTo (status : BatchStatus) (phase : BatchPhase) (now : Time) : BatchStatus :=
  { status with
    phase := phase
    updatedAt := now
    startedAt := match phase with
      | .discovering | .running => status.startedAt.or (some now)
      | _ => status.startedAt
    completedAt := match phase with
      | .complete | .failed | .cancelled => status.completedAt.or (some now)
      | _ => status.completedAt }

@[simp] theorem transitionTo_phase (status : BatchStatus) (phase : BatchPhase) (now : Time) :
    (status.transitionTo phase now).phase = phase := rfl

end BatchStatus

/-! ### Specs -/

/-- `BatchSpec`, the fields the controller and the scanner read. -/
structure BatchSpec where
  nameSpace : String
  name : String
  sources : List String
  output : String
  config : String
  backoffLimit : Nat
  deriving DecidableEq

inductive BatchSpecError where
  | invalidName (reason : String)
  | validation (reason : String)
  | invalidUrl (url reason : String)
  deriving DecidableEq

/-- The error's `Display` text. -/
def BatchSpecError.text : BatchSpecError → String
  | .invalidName reason => "invalid name: " ++ reason
  | .validation reason => "validation error: " ++ reason
  | .invalidUrl url reason => "invalid URL '" ++ url ++ "': " ++ reason

namespace BatchSpec

/-- `batch_id_from_spec`. -/
def batchId (spec : BatchSpec) : String := spec.nameSpace ++ ":" ++ spec.name

/-- `validate_source_url` and `validate_output_url`, which make the same check. -/
def validateUrl (url : String) : Except BatchSpecError Unit :=
  if "s3://".toList.isPrefixOf url.toList || "file://".toList.isPrefixOf url.toList then .ok ()
  else .error (.invalidUrl url "invalid scheme (must be s3:// or file://)")

def validate (spec : BatchSpec) : Except BatchSpecError Unit :=
  if spec.name = "" then .error (.invalidName "name cannot be empty")
  else if spec.sources = [] then .error (.validation "at least one source URL is required")
  else do
    spec.sources.forM validateUrl
    validateUrl spec.output

end BatchSpec

/-! ### What the controller makes of a status -/

/-- `reconcile_phase` on `Pending`. -/
def reconcilePending (spec : BatchSpec) (status : BatchStatus) (now : Time) : BatchStatus :=
  match spec.validate with
  | .error reason =>
    { status.transitionTo .failed now with error := some ("Validation failed: " ++ reason.text) }
  | .ok () =>
    { status.transitionTo .discovering now with
      discoveryStatus := some { totalSources := spec.sources.length % 2 ^ 32 } }

/-- `reconcile_discovering`; the age is the distance to now in whole seconds. -/
def reconcileDiscovering (timeoutSecs : Nat) (spec : BatchSpec) (status : BatchStatus)
    (now : Time) : BatchStatus :=
  let status := { status with
    discoveryStatus :=
      status.discoveryStatus.or (some { totalSources := spec.sources.length % 2 ^ 32 }) }
  if timeoutSecs < (status.updatedAt - now).natAbs / 1000000000 then
    { status.transitionTo .failed now with
      error := some ("Discovery timeout: exceeded " ++ toString timeoutSecs ++ " seconds") }
  else status

/-- `reconcile_phase` where it makes no call; a `Running` or `Failed` batch is left
to the scan of `reconcile_running`. -/
def reconcilePhase (timeoutSecs : Nat) (spec : BatchSpec) (status : BatchStatus) (now : Time) :
    BatchStatus :=
  match status.phase with
  | .pending => reconcilePending spec status now
  | .discovering => reconcileDiscovering timeoutSecs spec status now
  | _ => status

/-- One entry of `failed_work_units`, for a unit that is `Failed` or `Dead`. -/
def failedWorkUnit (unit : WorkUnit) : FailedWorkUnit where
  id := unit.id
  sourceFile := (unit.files.head?.map WorkFile.url).getD "unknown"
  error := unit.error.getD "Unknown error"
  retries := unit.attempts
  failedAt := unit.updatedAt

/-- The counters of `reconcile_running`'s loop; other statuses are not counted. -/
def countStatus (units : List WorkUnit) (counted : WorkUnitStatus → Bool) : Nat :=
  units.countP fun unit => counted unit.status

def isFailure : WorkUnitStatus → Bool
  | .failed | .dead => true
  | _ => false

/-- The counts a scan leaves in the status. A scan that counts nothing keeps the totals. -/
def recount (status : BatchStatus) (units : List WorkUnit) (now : Time) : BatchStatus :=
  let completed := countStatus units (· = .complete)
  let failed := countStatus units isFailure
  let processing := countStatus units (· = .processing)
  let scanTotal := completed + failed + processing
  { status with
    workUnitsTotal := if 0 < scanTotal then scanTotal else status.workUnitsTotal
    filesTotal := if 0 < scanTotal then scanTotal else status.filesTotal
    updatedAt := if 0 < scanTotal then now else status.updatedAt
    workUnitsCompleted := completed
    workUnitsFailed := failed
    workUnitsActive := processing
    filesCompleted := completed
    filesFailed := failed
    filesActive := processing
    failedWorkUnits := (units.filter fun unit => isFailure unit.status).map failedWorkUnit }

/-- A `Failed` batch none of whose units counts as failed any more runs again. -/
def recover (status : BatchStatus) (now : Time) : BatchStatus :=
  if status.phase = .failed ∧ status.workUnitsFailed = 0 ∧
      (0 < status.workUnitsCompleted ∨ 0 < status.workUnitsActive) then
    { status with error := none, failedWorkUnits := [], completedAt := none }.transitionTo .running
      now
  else status

/-- `reconcile_running`, on the units its scan returned. -/
def reconcileRunning (spec : BatchSpec) (status : BatchStatus) (units : List WorkUnit)
    (now : Time) : BatchStatus :=
  let status := recover (recount status units now) now
  if status.shouldFail spec.backoffLimit then
    { status.transitionTo .failed now with
      error := some ("Backoff limit exceeded: " ++ toString status.workUnitsFailed ++
        " work units failed") }
  else if status.isComplete ∧ 0 < status.workUnitsFailed then
    { status.transitionTo .failed now with
      error := some (toString status.workUnitsFailed ++ " of " ++ toString status.workUnitsTotal ++
        " work units failed") }
  else status

/-! ### What reconciling can do to a phase -/

theorem reconcilePending_phase (spec : BatchSpec) (status : BatchStatus) (now : Time) :
    (reconcilePending spec status now).phase = .discovering ∨
      (reconcilePending spec status now).phase = .failed := by
  unfold reconcilePending
  split
  · exact .inr rfl
  · exact .inl rfl

theorem reconcileDiscovering_phase (timeout : Nat) (spec : BatchSpec) (status : BatchStatus)
    (now : Time) :
    (reconcileDiscovering timeout spec status now).phase = status.phase ∨
      (reconcileDiscovering timeout spec status now).phase = .failed := by
  unfold reconcileDiscovering
  dsimp only
  split
  · exact .inr rfl
  · exact .inl rfl

/-- Without a scan, reconciling starts a pending batch, fails one that was not yet
discovered, or leaves the phase. -/
theorem reconcilePhase_phase (timeout : Nat) (spec : BatchSpec) (status : BatchStatus)
    (now : Time) :
    (reconcilePhase timeout spec status now).phase = status.phase ∨
      (status.phase = .pending ∧ (reconcilePhase timeout spec status now).phase = .discovering) ∨
      ((status.phase = .pending ∨ status.phase = .discovering) ∧
        (reconcilePhase timeout spec status now).phase = .failed) := by
  unfold reconcilePhase
  split
  · rename_i pending
    rcases reconcilePending_phase spec status now with starts | fails
    · exact .inr (.inl ⟨pending, starts⟩)
    · exact .inr (.inr ⟨.inl pending, fails⟩)
  · rename_i discovering
    rcases reconcileDiscovering_phase timeout spec status now with same | fails
    · exact .inl same
    · exact .inr (.inr ⟨.inr discovering, fails⟩)
  · exact .inl rfl

theorem recover_phase (status : BatchStatus) (now : Time) :
    (recover status now).phase = status.phase ∨
      (status.phase = .failed ∧ (recover status now).phase = .running) := by
  unfold recover
  split
  · rename_i recovers
    exact .inr ⟨recovers.1, rfl⟩
  · exact .inl rfl


/-- From `Running` or `Failed`, reconciling stays, fails, or recovers. -/
theorem reconcileRunning_phase (spec : BatchSpec) (status : BatchStatus) (units : List WorkUnit)
    (now : Time) :
    (reconcileRunning spec status units now).phase = status.phase ∨
      (reconcileRunning spec status units now).phase = .failed ∨
      (status.phase = .failed ∧ (reconcileRunning spec status units now).phase = .running) := by
  have recovered := recover_phase (recount status units now) now
  unfold reconcileRunning
  dsimp only
  split
  · exact .inr (.inl rfl)
  · split
    · exact .inr (.inl rfl)
    · rcases recovered with same | recovers
      · exact .inl same
      · exact .inr (.inr recovers)

/-- Recovering changes no count. -/
theorem recover_counts (status : BatchStatus) (now : Time) :
    (recover status now).workUnitsTotal = status.workUnitsTotal ∧
      (recover status now).workUnitsCompleted = status.workUnitsCompleted ∧
      (recover status now).workUnitsFailed = status.workUnitsFailed := by
  unfold recover
  split <;> exact ⟨rfl, rfl, rfl⟩

/-- A batch is left `Running` and complete only by a scan that counted a complete
unit and no failed and no processing one. -/
theorem counts_of_running_complete {status : BatchStatus} {units : List WorkUnit}
    (running : (reconcileRunning spec status units now).phase = .running)
    (complete : (reconcileRunning spec status units now).isComplete = true) :
    0 < countStatus units (· = .complete) ∧ countStatus units isFailure = 0 ∧
      countStatus units (· = .processing) = 0 := by
  obtain ⟨total, completed, failed⟩ := recover_counts (recount status units now) now
  unfold reconcileRunning at running complete
  dsimp only at running complete
  split at running
  · cases running
  · rename_i within
    rw [if_neg within] at complete
    split at running
    · cases running
    · rename_i unfailed
      rw [if_neg unfailed] at complete
      have none : countStatus units isFailure = 0 := by
        have zero : ¬ 0 < (recover (recount status units now) now).workUnitsFailed :=
          fun some => unfailed ⟨complete, some⟩
        rw [failed] at zero
        exact Nat.eq_zero_of_not_pos zero
      simp only [BatchStatus.isComplete, Bool.and_eq_true, decide_eq_true_eq] at complete
      rw [total, completed, failed] at complete
      simp only [recount, none] at complete
      split at complete <;> omega

end Roboflow.Batch
