import Roboflow.Batch.WorkQueue

/-! One turn of the worker's main loop, `worker/coordinator.rs`: claiming a unit and
processing it. The calls of the batch controller are those of the work queue, with
what they meet made explicit: the client's errors, and what other parties did to
the stored units before each call. -/
namespace Roboflow.Worker
open Library Batch

/-- A `TikvError`, by its `Display` text. -/
structure TikvError where
  text : String
  deriving DecidableEq

/-- `ProcessingResult`. The statistics of an episode only go to a collector whose errors are
logged. -/
inductive ProcessingResult where
  | success (episodeIndex frameCount : Nat)
  | failed (error : String)
  | cancelled

/-- The counters of `WorkerMetrics` that the loop moves. -/
structure WorkerMetrics where
  jobsClaimed : UInt64
  jobsCompleted : UInt64
  jobsFailed : UInt64
  activeJobs : UInt64
  processingErrors : UInt64
  deriving DecidableEq

namespace WorkerMetrics

def incJobsClaimed (m : WorkerMetrics) : WorkerMetrics := { m with jobsClaimed := m.jobsClaimed + 1 }
def incJobsCompleted (m : WorkerMetrics) : WorkerMetrics :=
  { m with jobsCompleted := m.jobsCompleted + 1 }
def incJobsFailed (m : WorkerMetrics) : WorkerMetrics := { m with jobsFailed := m.jobsFailed + 1 }
def incActiveJobs (m : WorkerMetrics) : WorkerMetrics := { m with activeJobs := m.activeJobs + 1 }
def decActiveJobs (m : WorkerMetrics) : WorkerMetrics := { m with activeJobs := m.activeJobs - 1 }
def incProcessingErrors (m : WorkerMetrics) : WorkerMetrics :=
  { m with processingErrors := m.processingErrors + 1 }

end WorkerMetrics

/-- The worker's gauges and the stored records it works on. -/
structure Coordinator where
  podId : String
  metrics : WorkerMetrics
  units : Kv String WorkUnit
  pending : Kv String String

/-- Everything `process_work_unit` meets on its way. -/
structure Met where
  /-- `ShutdownHandler::is_requested`. -/
  shutdownRequested : Bool
  /-- A shutdown was requested after that, by the time the call returns. -/
  shutdownMeanwhile : Bool
  /-- `SlotPool::acquire` fails. -/
  slotClosed : Bool
  /-- What the `WorkProcessor` answers. -/
  processed : Except TikvError ProcessingResult
  /-- What others have done to the units by the controller's get, and between get and put. -/
  meanwhile : Kv String WorkUnit → Kv String WorkUnit
  beforePut : Kv String WorkUnit → Kv String WorkUnit
  /-- The errors of the controller's get, of its put and of the put that requeues. -/
  getError : Option TikvError
  putError : Option TikvError
  requeueError : Option TikvError

/-- Whether the worker stops when the loop is left. `run` waits for the heartbeats to end, which go on
until a shutdown is requested. -/
def Met.stopping (met : Met) : Bool := met.shutdownRequested || met.shutdownMeanwhile

namespace Coordinator

/-- `claim_work_unit`, with nothing between its scan and its transaction. -/
def claimWorkUnit (worker : Coordinator) (now : Time) : Coordinator × Option WorkUnit :=
  match worker.pending.scan (fun _ => true) 1 with
  | [] => (worker, none)
  | (pendingKey, _) :: _ =>
    match parsePendingKey pendingKey with
    | none => (worker, none)
    | some (batchId, unitId) =>
      match worker.units.get (unitKey batchId unitId) with
      | none => ({ worker with pending := worker.pending.delete pendingKey }, none)
      | some unit =>
        match unit.claim worker.podId now with
        | .error _ => (worker, none)
        | .ok claimed =>
          ({ worker with
              units := worker.units.put (unitKey batchId unitId) claimed
              pending := worker.pending.delete pendingKey }, some claimed)

/-- `claim_work`. -/
def claimWork (worker : Coordinator) (now : Time) : Coordinator × Option WorkUnit :=
  match worker.claimWorkUnit now with
  | (after, some unit) =>
    ({ after with metrics := after.metrics.incJobsClaimed.incActiveJobs }, some unit)
  | (after, none) => (after, none)

/-- The get and the put that `complete_work_unit` and `fail_work_unit` begin with. -/
def updateUnit (met : Met) (worker : Coordinator) (key : String) (update : WorkUnit → WorkUnit) :
    Coordinator × Except TikvError (Option WorkUnit) :=
  let units := met.meanwhile worker.units
  match met.getError with
  | some error => ({ worker with units := units }, .error error)
  | none =>
    match units.get key with
    | none => ({ worker with units := units }, .ok none)
    | some unit =>
      match met.putError with
      | some error => ({ worker with units := met.beforePut units }, .error error)
      | none =>
        ({ worker with units := (met.beforePut units).put key (update unit) },
          .ok (some (update unit)))

/-- `complete_work_unit`. -/
def completeWorkUnit (met : Met) (worker : Coordinator) (batchId unitId : String) (now : Time) :
    Coordinator × Except TikvError Bool :=
  match updateUnit met worker (unitKey batchId unitId) (·.complete now) with
  | (after, .ok found) => (after, .ok found.isSome)
  | (after, .error error) => (after, .error error)

/-- `fail_work_unit`: a unit that may be retried goes back to the queue. -/
def failWorkUnit (met : Met) (worker : Coordinator) (batchId unitId error : String) (now : Time) :
    Coordinator × Except TikvError Bool :=
  match updateUnit met worker (unitKey batchId unitId) (·.fail error now) with
  | (after, .ok none) => (after, .ok false)
  | (after, .ok (some unit)) =>
    if unit.status = .failed then
      match met.requeueError with
      | some error => (after, .error error)
      | none =>
        ({ after with pending := after.pending.put (unitKey batchId unitId) batchId }, .ok true)
    else (after, .ok true)
  | (after, .error error) => (after, .error error)

/-- The end of `complete_work` and `fail_work`: the gauge goes down unless the call failed. -/
def settled (count : WorkerMetrics → WorkerMetrics) :
    Coordinator × Except TikvError Bool → Coordinator × Except TikvError Unit
  | (worker, .ok true) => ({ worker with metrics := (count worker.metrics).decActiveJobs }, .ok ())
  | (worker, .ok false) => ({ worker with metrics := worker.metrics.decActiveJobs }, .ok ())
  | (worker, .error error) => (worker, .error error)

def completeWork (met : Met) (worker : Coordinator) (batchId unitId : String) (now : Time) :
    Coordinator × Except TikvError Unit :=
  settled (·.incJobsCompleted) (completeWorkUnit met worker batchId unitId now)

def failWork (met : Met) (worker : Coordinator) (batchId unitId error : String) (now : Time) :
    Coordinator × Except TikvError Unit :=
  settled (·.incJobsFailed) (failWorkUnit met worker batchId unitId error now)

/-- How `process_work_unit` and `handle_execution_result` end after they settled the unit. -/
def finish : Coordinator × Except TikvError Unit → Coordinator × Except TikvError Bool
  | (worker, .ok ()) => (worker, .ok false)
  | (worker, .error error) =>
    ({ worker with metrics := worker.metrics.incProcessingErrors }, .error error)

/-- `error.contains("shutdown")`. -/
def mentionsShutdown (error : String) : Bool := "shutdown".toList <:+: error.toList

/-- `handle_execution_result`; `true` tells the loop to stop. -/
def handleExecutionResult (met : Met) (worker : Coordinator) (batchId unitId : String) (now : Time) :
    ProcessingResult → Coordinator × Except TikvError Bool
  | .success _ _ => finish (worker.completeWork met batchId unitId now)
  | .failed error =>
    if mentionsShutdown error then ({ worker with units := met.meanwhile worker.units }, .ok true)
    else finish (worker.failWork met batchId unitId error now)
  | .cancelled => ({ worker with units := met.meanwhile worker.units }, .ok false)

/-- `process_work_unit`. -/
def processWorkUnit (met : Met) (worker : Coordinator) (unit : WorkUnit) (now : Time) :
    Coordinator × Except TikvError Bool :=
  if met.shutdownRequested then ({ worker with units := met.meanwhile worker.units }, .ok true)
  else if met.slotClosed then
    ({ worker with
        units := met.meanwhile worker.units
        metrics := worker.metrics.decActiveJobs }, .ok false)
  else
    match met.processed with
    | .ok result => handleExecutionResult met worker unit.batchId unit.id now result
    | .error error =>
      finish (worker.failWork met unit.batchId unit.id ("Execution error: " ++ error.text) now)

end Coordinator

/-! ### The controller's calls are those of the work queue -/

/-- The worker on the records of a queue. -/
def Coordinator.on (podId : String) (metrics : WorkerMetrics) (s : WorkState) : Coordinator :=
  ⟨podId, metrics, s.units, s.pending⟩

/-- No client call fails and nobody else touches the units. -/
structure Met.Quiet (met : Met) : Prop where
  alone : met.meanwhile = id
  aloneAtPut : met.beforePut = id
  reads : met.getError = none
  writes : met.putError = none
  requeues : met.requeueError = none

def claimedUnit : WorkOut → Option WorkUnit
  | .claimed _ unit => some unit
  | _ => none

section
variable (config : WorkConfig) (podId : String) (metrics : WorkerMetrics) {met : Met} {s : WorkState}
  {task : Nat}

theorem claimWorkUnit_steps (free : s.tasks task = ⟨none, .idle⟩) (now : Time) :
    ∃ s' out, (workStep config s (.scanPending task podId) = some (s', out) ∨
        ∃ found, workStep config s (.scanPending task podId) = some (found, .working) ∧
          workStep config found (.claimTxn task now) = some (s', out)) ∧
      (Coordinator.on podId metrics s).claimWorkUnit now =
        (Coordinator.on podId metrics s', claimedUnit out) := by
  unfold Coordinator.claimWorkUnit Coordinator.on
  cases scanned : s.pending.scan (fun _ => true) 1 with
  | nil =>
    refine ⟨s, .notClaimed, .inl ?_, rfl⟩
    simp [workStep, free, scanned]
  | cons entry rest =>
    obtain ⟨pendingKey, value⟩ := entry
    cases parsed : parsePendingKey pendingKey with
    | none =>
      refine ⟨s, .notClaimed, .inl ?_, ?_⟩
      · simp [workStep, free, scanned, parsed]
      · simp [parsed, claimedUnit]
    | some parts =>
      obtain ⟨batchId, unitId⟩ := parts
      let waiting := s.setCall task (.claiming podId pendingKey)
      have working : workStep config s (.scanPending task podId) = some (waiting, .working) := by
        simp [workStep, free, scanned, parsed, waiting]
      cases stored : s.units.get (unitKey batchId unitId) with
      | none =>
        refine ⟨{ waiting with pending := waiting.pending.delete pendingKey }.setCall task .idle,
          .notClaimed, .inr ⟨waiting, working, ?_⟩, ?_⟩
        · simp [workStep, waiting, parsed, stored]
        · simp [parsed, stored, claimedUnit, waiting]
      | some unit =>
        cases tried : unit.claim podId now with
        | error refused =>
          refine ⟨waiting.setCall task .idle, .notClaimed, .inr ⟨waiting, working, ?_⟩, ?_⟩
          · simp [workStep, waiting, parsed, stored, tried]
          · simp [parsed, stored, tried, claimedUnit, waiting]
        | ok claimed =>
          refine ⟨{ waiting with
              units := waiting.units.put (unitKey batchId unitId) claimed
              pending := waiting.pending.delete pendingKey }.setTask task {
                claim := some ⟨podId, unitKey batchId unitId, claimed.attempts⟩ },
            .claimed (unitKey batchId unitId) claimed, .inr ⟨waiting, working, ?_⟩, ?_⟩
          · simp [workStep, waiting, parsed, stored, tried]
          · simp [parsed, stored, tried, claimedUnit, waiting]

theorem completeWorkUnit_steps (quiet : met.Quiet) (idle : (s.tasks task).call = .idle)
    (batchId unitId : String) (now : Time) :
    ∃ s' found, (workStep config s (.completeGet task batchId unitId now) =
          some (s', .updated found) ∨
        ∃ got, workStep config s (.completeGet task batchId unitId now) = some (got, .working) ∧
          workStep config got (.completePut task) = some (s', .updated found)) ∧
      (Coordinator.on podId metrics s).completeWorkUnit met batchId unitId now =
        (Coordinator.on podId metrics s', .ok found) := by
  unfold Coordinator.completeWorkUnit Coordinator.updateUnit Coordinator.on
  simp only [quiet.alone, quiet.aloneAtPut, quiet.reads, quiet.writes, id_eq]
  cases stored : s.units.get (unitKey batchId unitId) with
  | none =>
    refine ⟨s, false, .inl ?_, rfl⟩
    simp [workStep, idle, stored]
  | some unit =>
    let got := s.setCall task (.completing (unitKey batchId unitId) (unit.complete now))
    refine ⟨got.settle task (unitKey batchId unitId) (unit.complete now) .idle, true,
      .inr ⟨got, ?_, ?_⟩, ?_⟩
    · simp [workStep, idle, stored, got]
    · simp [workStep, got]
    · simp [WorkState.settle, got]

theorem failWorkUnit_steps (quiet : met.Quiet) (idle : (s.tasks task).call = .idle)
    (batchId unitId error : String) (now : Time) :
    ∃ s' found, (workStep config s (.failGet task batchId unitId error now) =
          some (s', .updated found) ∨
        ∃ got, workStep config s (.failGet task batchId unitId error now) = some (got, .working) ∧
          (workStep config got (.failPut task) = some (s', .updated found) ∨
            ∃ saved, workStep config got (.failPut task) = some (saved, .working) ∧
              workStep config saved (.failRequeue task) = some (s', .updated found))) ∧
      (Coordinator.on podId metrics s).failWorkUnit met batchId unitId error now =
        (Coordinator.on podId metrics s', .ok found) := by
  unfold Coordinator.failWorkUnit Coordinator.updateUnit Coordinator.on
  simp only [quiet.alone, quiet.aloneAtPut, quiet.reads, quiet.writes, quiet.requeues, id_eq]
  cases stored : s.units.get (unitKey batchId unitId) with
  | none =>
    refine ⟨s, false, .inl ?_, rfl⟩
    simp [workStep, idle, stored]
  | some unit =>
    let got := s.setCall task (.failing (unitKey batchId unitId) batchId (unit.fail error now))
    have read : workStep config s (.failGet task batchId unitId error now) = some (got, .working) := by
      simp [workStep, idle, stored, got]
    by_cases retried : (unit.fail error now).status = .failed
    · let saved := got.settle task (unitKey batchId unitId) (unit.fail error now)
        (.requeueing (unitKey batchId unitId) batchId)
      refine ⟨{ saved with pending := saved.pending.put (unitKey batchId unitId) batchId }.setCall
        task .idle, true, .inr ⟨got, read, .inr ⟨saved, ?_, ?_⟩⟩, ?_⟩
      · simp [workStep, got, saved, retried]
      · simp [workStep, saved, WorkState.settle]
      · simp [retried, saved, got, WorkState.settle]
    · refine ⟨got.settle task (unitKey batchId unitId) (unit.fail error now) .idle, true,
        .inr ⟨got, read, .inl ?_⟩, ?_⟩
      · simp [workStep, got, retried]
      · simp [retried, WorkState.settle, got]

end

end Roboflow.Worker
