import Roboflow.Worker.Coordinator

/-! Every exit of `process_work_unit` has two things to undo: the gauge that the claim
raised, and the worker's hold on the unit. The exits that settle the unit undo both
once their store calls succeed; a cancelled unit undoes neither, and a closed slot
pool only the gauge. -/
namespace Roboflow.Worker
open Library Batch

/-- The unit is stored as being processed by this worker. -/
def Held (podId key : String) (units : Kv String WorkUnit) : Prop :=
  ∃ unit, units.get key = some unit ∧ unit.status = .processing ∧ unit.owner = some podId

/-- Unless the worker stops: the gauge is what it was before the claim, and the worker does not hold
the unit. It stops where the loop is left and a shutdown was requested. -/
def Restored (before : Coordinator) (key : String) (met : Met)
    (result : Coordinator × Except TikvError Bool) : Prop :=
  ¬(result.2 = .ok true ∧ met.stopping = true) → result.1.metrics.activeJobs = before.metrics.activeJobs ∧
    ¬ Held before.podId key result.1.units

/-- The store calls that are made succeed; a failed unit with attempts left is also requeued. -/
def CallsSucceed (met : Met) (units : Kv String WorkUnit) (key : String) (fails : Bool) : Prop :=
  met.getError = none ∧ ∀ unit, (met.meanwhile units).get key = some unit →
    met.putError = none ∧
      (fails = true → unit.attempts < unit.maxAttempts → met.requeueError = none)

/-- The worker stops, or it settles the unit and the store lets it, or without a slot someone else has
taken the unit already. A failure that mentions a shutdown is not settled. -/
def Undone (podId key : String) (met : Met) (units : Kv String WorkUnit) : Prop :=
  if met.shutdownRequested then True
  else if met.slotClosed then ¬ Held podId key (met.meanwhile units)
  else
    match met.processed with
    | .ok (.success _ _) => CallsSucceed met units key false
    | .ok (.failed error) =>
      if Coordinator.mentionsShutdown error then met.shutdownMeanwhile = true
      else CallsSucceed met units key true
    | .ok .cancelled => False
    | .error _ => CallsSucceed met units key true

/-! ### The claim -/

theorem claimWork_some {before claimed : Coordinator} {unit : WorkUnit} {now : Time}
    (claims : before.claimWork now = (claimed, some unit)) :
    claimed.podId = before.podId ∧
      claimed.metrics.activeJobs = before.metrics.activeJobs + 1 := by
  have kept : ∀ after found, before.claimWorkUnit now = (after, found) →
      after.podId = before.podId ∧ after.metrics = before.metrics := by
    intro after found made
    unfold Coordinator.claimWorkUnit at made
    repeat' split at made
    all_goals
      cases made
      exact ⟨rfl, rfl⟩
  unfold Coordinator.claimWork at claims
  split at claims
  · rename_i after found made
    cases claims
    obtain ⟨pod, metrics⟩ := kept _ _ made
    refine ⟨pod, ?_⟩
    simp [WorkerMetrics.incActiveJobs, WorkerMetrics.incJobsClaimed, metrics]
  · cases claims

/-! ### Settling the unit -/

section
variable {met : Met} {worker : Coordinator} {key podId : String}

/-- The four ways through a get and a put. -/
theorem updateUnit_cases (met : Met) (worker : Coordinator) (key : String)
    (update : WorkUnit → WorkUnit) :
    (∃ error, met.getError = some error ∧ worker.updateUnit met key update =
        ({ worker with units := met.meanwhile worker.units }, .error error)) ∨
      (met.getError = none ∧ (met.meanwhile worker.units).get key = none ∧
        worker.updateUnit met key update =
          ({ worker with units := met.meanwhile worker.units }, .ok none)) ∨
      (∃ unit error, met.getError = none ∧ (met.meanwhile worker.units).get key = some unit ∧
        met.putError = some error ∧ worker.updateUnit met key update =
          ({ worker with units := met.beforePut (met.meanwhile worker.units) }, .error error)) ∨
      (∃ unit, met.getError = none ∧ (met.meanwhile worker.units).get key = some unit ∧
        met.putError = none ∧ worker.updateUnit met key update =
          ({ worker with units := (met.beforePut (met.meanwhile worker.units)).put key (update unit) },
            .ok (some (update unit)))) := by
  unfold Coordinator.updateUnit
  cases get : met.getError with
  | some error => exact .inl ⟨error, rfl, rfl⟩
  | none =>
    cases found : (met.meanwhile worker.units).get key with
    | none =>
      refine .inr (.inl ⟨rfl, rfl, ?_⟩)
      simp [found]
    | some unit =>
      cases put : met.putError with
      | some error =>
        refine .inr (.inr (.inl ⟨unit, error, rfl, rfl, rfl, ?_⟩))
        simp [found]
      | none =>
        refine .inr (.inr (.inr ⟨unit, rfl, rfl, rfl, ?_⟩))
        simp [found]

theorem not_held_absent {units : Kv String WorkUnit} (absent : units.get key = none) :
    ¬ Held podId key units := by
  rintro ⟨unit, stored, -⟩
  rw [absent] at stored
  cases stored

theorem not_held_put {unit : WorkUnit} (ended : unit.status ≠ .processing)
    (units : Kv String WorkUnit) : ¬ Held podId key (units.put key unit) := by
  rintro ⟨stored, found, processing, -⟩
  rw [Kv.get_put_self] at found
  cases found
  exact ended processing

/-- A call of the controller that settles the unit: it changes no metric, and it ends well
and takes the unit from the worker exactly if its store calls succeed. -/
structure Settles (podId key : String) (met : Met) (worker : Coordinator) (fails : Bool)
    (call : Coordinator × Except TikvError Bool) : Prop where
  metrics : call.1.metrics = worker.metrics
  ok_iff : (∃ found, call.2 = .ok found) ↔ CallsSucceed met worker.units key fails
  released : (∃ found, call.2 = .ok found) → ¬ Held podId key call.1.units

theorem completeWorkUnit_settles (batchId unitId : String) (now : Time) :
    Settles podId (unitKey batchId unitId) met worker false
      (worker.completeWorkUnit met batchId unitId now) := by
  unfold Coordinator.completeWorkUnit
  rcases updateUnit_cases met worker (unitKey batchId unitId) (·.complete now) with
    ⟨error, get, made⟩ | ⟨get, absent, made⟩ | ⟨unit, error, get, found, put, made⟩ |
    ⟨unit, get, found, put, made⟩
  · rw [made]
    refine ⟨rfl, ?_, ?_⟩
    · simp [CallsSucceed, get]
    · simp
  · rw [made]
    refine ⟨rfl, ?_, fun _ => not_held_absent absent⟩
    simp [CallsSucceed, get, absent]
  · rw [made]
    refine ⟨rfl, ?_, ?_⟩
    · simp [CallsSucceed, get, found, put]
    · simp
  · rw [made]
    refine ⟨rfl, ?_, fun _ => not_held_put (by simp) _⟩
    simp [CallsSucceed, get, found, put]

theorem fail_ends (unit : WorkUnit) (error : String) (now : Time) :
    (unit.fail error now).status ≠ .processing := by
  rcases unit.fail_status error now with ⟨status, -⟩ | ⟨status, -⟩ <;> rw [status] <;> decide

theorem fail_retried_iff (unit : WorkUnit) (error : String) (now : Time) :
    (unit.fail error now).status = .failed ↔ unit.attempts < unit.maxAttempts := by
  rcases unit.fail_status error now with ⟨status, room⟩ | ⟨status, full⟩
  · exact iff_of_true status room
  · rw [status]
    exact iff_of_false (by decide) (by omega)

theorem failWorkUnit_settles (batchId unitId error : String) (now : Time) :
    Settles podId (unitKey batchId unitId) met worker true
      (worker.failWorkUnit met batchId unitId error now) := by
  unfold Coordinator.failWorkUnit
  rcases updateUnit_cases met worker (unitKey batchId unitId) (·.fail error now) with
    ⟨error, get, made⟩ | ⟨get, absent, made⟩ | ⟨unit, error, get, found, put, made⟩ |
    ⟨unit, get, found, put, made⟩
  · rw [made]
    refine ⟨rfl, ?_, ?_⟩
    · simp [CallsSucceed, get]
    · simp
  · rw [made]
    refine ⟨rfl, ?_, fun _ => not_held_absent absent⟩
    simp [CallsSucceed, get, absent]
  · rw [made]
    refine ⟨rfl, ?_, ?_⟩
    · simp [CallsSucceed, get, found, put]
    · simp
  · rw [made]
    have retried := fail_retried_iff unit error now
    have released : ¬ Held podId (unitKey batchId unitId)
        ((met.beforePut (met.meanwhile worker.units)).put (unitKey batchId unitId)
          (unit.fail error now)) := not_held_put (fail_ends unit error now) _
    by_cases again : (unit.fail error now).status = .failed
    · have room := retried.mp again
      cases requeue : met.requeueError with
      | some refused =>
        simp only [again, ↓reduceIte]
        refine ⟨rfl, ?_, ?_⟩
        · simp [CallsSucceed, get, found, put, room, requeue]
        · simp
      | none =>
        simp only [again, ↓reduceIte]
        refine ⟨rfl, ?_, fun _ => released⟩
        simp [CallsSucceed, get, found, put, requeue]
    · have full : ¬ unit.attempts < unit.maxAttempts := fun room => again (retried.mpr room)
      simp only [again, ↓reduceIte]
      refine ⟨rfl, ?_, fun _ => released⟩
      simp [CallsSucceed, get, found, put, full]

/-- After a settling call, everything is restored exactly if the call did not fail. -/
theorem restored_of_settles {before : Coordinator} {fails : Bool}
    {call : Coordinator × Except TikvError Bool} {count : WorkerMetrics → WorkerMetrics}
    (settles : Settles before.podId key met worker fails call)
    (raised : worker.metrics.activeJobs = before.metrics.activeJobs + 1)
    (counts : ∀ metrics, (count metrics).activeJobs = metrics.activeJobs) :
    Restored before key met (Coordinator.finish (Coordinator.settled count call)) ↔
      CallsSucceed met worker.units key fails := by
  rw [← settles.ok_iff]
  obtain ⟨after, answer⟩ := call
  have gauge : after.metrics.activeJobs = before.metrics.activeJobs + 1 := by
    rw [show after.metrics = worker.metrics from settles.metrics]
    exact raised
  have lowered : after.metrics.activeJobs - 1 = before.metrics.activeJobs := by
    rw [gauge]
    exact UInt64.add_sub_cancel _ _
  cases answer with
  | error error =>
    refine iff_of_false ?_ (by simp)
    intro restored
    have same : after.metrics.activeJobs = before.metrics.activeJobs :=
      (restored (by simp [Coordinator.settled, Coordinator.finish])).1
    rw [gauge] at same
    simp at same
  | ok found =>
    refine iff_of_true ?_ ⟨found, rfl⟩
    intro _
    have released := settles.released ⟨found, rfl⟩
    cases found with
    | true =>
      refine ⟨?_, released⟩
      simp only [Coordinator.settled, Coordinator.finish, WorkerMetrics.decActiveJobs, counts]
      exact lowered
    | false => exact ⟨lowered, released⟩

end

/-- For every claimed unit and everything its processing can meet: unless the worker stops,
the gauge and the hold on the unit are undone exactly under `Undone`. -/
theorem bookkeeping_restored_iff (before claimed : Coordinator) (unit : WorkUnit)
    (claimedAt now : Time) (met : Met)
    (claims : before.claimWork claimedAt = (claimed, some unit)) :
    Restored before (unitKey unit.batchId unit.id) met (claimed.processWorkUnit met unit now) ↔
      Undone before.podId (unitKey unit.batchId unit.id) met claimed.units := by
  obtain ⟨pod, raised⟩ := claimWork_some claims
  have fails : ∀ error, Restored before (unitKey unit.batchId unit.id) met
      (Coordinator.finish (claimed.failWork met unit.batchId unit.id error now)) ↔
        CallsSucceed met claimed.units (unitKey unit.batchId unit.id) true := by
    intro error
    exact restored_of_settles (failWorkUnit_settles _ _ _ _) raised fun _ => rfl
  have completes : Restored before (unitKey unit.batchId unit.id) met
      (Coordinator.finish (claimed.completeWork met unit.batchId unit.id now)) ↔
        CallsSucceed met claimed.units (unitKey unit.batchId unit.id) false :=
    restored_of_settles (completeWorkUnit_settles _ _ _) raised fun _ => rfl
  unfold Coordinator.processWorkUnit Undone
  split
  · rename_i requested
    simp [Restored, Met.stopping, requested]
  · rename_i running
    split
    · have lowered : claimed.metrics.activeJobs - 1 = before.metrics.activeJobs := by
        rw [raised]
        exact UInt64.add_sub_cancel _ _
      simp [Restored, WorkerMetrics.decActiveJobs, lowered]
    · cases met.processed with
      | error error => exact fails _
      | ok result =>
        cases result with
        | success episodeIndex frameCount => exact completes
        | failed error =>
          simp only [Coordinator.handleExecutionResult]
          split
          · simp [Restored, Met.stopping, running, raised]
          · exact fails error
        | cancelled => simp [Restored, Coordinator.handleExecutionResult, raised]

/-- One queued unit, and a worker with nothing to do. -/
def idleWorker : Coordinator where
  podId := "pod-1"
  metrics := ⟨0, 0, 0, 0, 0⟩
  units := Kv.empty.put "b/u" (.withId "u" "b" [] "out" "cfg" 0)
  pending := Kv.empty.put "b/u" "b"

/-- A turn in which no client call fails and nobody else touches the units. -/
def undisturbed (answer : ProcessingResult) : Met where
  shutdownRequested := false
  shutdownMeanwhile := false
  slotClosed := false
  processed := .ok answer
  meanwhile := id
  beforePut := id
  getError := none
  putError := none
  requeueError := none

theorem finished_unit_restored :
    idleWorker.claimWork 1 = ((idleWorker.claimWork 1).1,
        some ((WorkUnit.withId "u" "b" [] "out" "cfg" 0).claimedBy "pod-1" 1)) ∧
      Restored idleWorker (unitKey "b" "u") (undisturbed (.success 0 100)) ((idleWorker.claimWork 1).1.processWorkUnit
        (undisturbed (.success 0 100))
        ((WorkUnit.withId "u" "b" [] "out" "cfg" 0).claimedBy "pod-1" 1) 2) := by
  have claims : idleWorker.claimWork 1 = ((idleWorker.claimWork 1).1,
      some ((WorkUnit.withId "u" "b" [] "out" "cfg" 0).claimedBy "pod-1" 1)) := rfl
  refine ⟨claims, (bookkeeping_restored_iff _ _ _ _ _ _ claims).mpr ?_⟩
  exact ⟨rfl, fun _ _ => ⟨rfl, fun absurd => by cases absurd⟩⟩

/-- A cancelled unit stays with the worker, which has one job less to give for good. -/
theorem cancelled_unit_kept : ¬ ∀ (before claimed : Coordinator) (unit : WorkUnit)
    (claimedAt now : Time) (met : Met), before.claimWork claimedAt = (claimed, some unit) →
    Restored before (unitKey unit.batchId unit.id) met (claimed.processWorkUnit met unit now) := by
  intro always
  have restored := always idleWorker (idleWorker.claimWork 1).1
    ((WorkUnit.withId "u" "b" [] "out" "cfg" 0).claimedBy "pod-1" 1) 1 2 (undisturbed .cancelled) rfl
  have gauge := (restored fun stops => by cases stops.1).1
  revert gauge
  decide

end Roboflow.Worker
