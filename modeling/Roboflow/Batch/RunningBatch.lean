import Roboflow.Batch.KeyIsolation

/-! When `reconcile_running` may fail a batch or call it complete. It decides from
four counters: units waiting to be claimed are in none of them, and units waiting
for a retry are counted with the dead ones. -/
namespace Roboflow.Batch
open Library

/-- A unit that can still be finished. -/
def WorkUnit.isOpen (unit : WorkUnit) : Bool :=
  unit.status = .pending || unit.status = .processing ||
    (unit.status = .failed && unit.attempts < unit.maxAttempts)

/-- A batch with an open unit and few enough dead ones is left `Running`, and it is called
complete only when no unit is open. -/
structure RunsWhileOpen (backoffLimit : Nat) (own : List WorkUnit) (after : BatchStatus) : Prop where
  running : (∃ unit ∈ own, unit.isOpen = true) → countStatus own (· = .dead) ≤ backoffLimit →
    after.phase = .running
  complete : after.isComplete = true → ∀ unit ∈ own, unit.isOpen = false

/-- The stored units in the range of the batch's scan, which are more than its own when
another batch id begins with its id. -/
def inRange (units : Kv String WorkUnit) (batchId : String) : List WorkUnit :=
  (units.entries.filter fun entry => batchId.toList.isPrefixOf entry.1.toList).map Prod.snd

/-- What the counters must not miss while a unit is open: a unit is being processed, or none
is complete, failed or dead; and the failed and dead units exceed the limit only if the dead
ones alone do. -/
def CountersTell (backoffLimit : Nat) (own scanned : List WorkUnit) : Prop :=
  (∃ unit ∈ own, unit.isOpen = true) →
    (0 < countStatus scanned (· = .processing) ∨
      countStatus scanned (· = .complete) = 0 ∧ countStatus scanned isFailure = 0) ∧
    (countStatus scanned isFailure ≤ backoffLimit ∨ backoffLimit < countStatus own (· = .dead))

/-- Below the limit the scan returns the whole range. -/
theorem scanBatchUnits_inRange {units : Kv String WorkUnit} {batchId : String}
    (few : (inRange units batchId).length < 10000) :
    scanBatchUnits units batchId = inRange units batchId := by
  have short : (units.entries.filter fun entry =>
      batchId.toList.isPrefixOf entry.1.toList).length ≤ 10000 := by
    simp only [inRange, List.length_map] at few
    omega
  rw [scanBatchUnits, Kv.scan, List.take_of_length_le short, inRange]

section
variable {spec : BatchSpec} {status : BatchStatus} {units : List WorkUnit} {now : Time}

/-- The counted status is complete exactly if something is finished and nothing is processed. -/
theorem recount_complete_iff (status : BatchStatus) (units : List WorkUnit) (now : Time) :
    (recover (recount status units now) now).isComplete = true ↔
      countStatus units (· = .processing) = 0 ∧
        0 < countStatus units (· = .complete) + countStatus units isFailure := by
  obtain ⟨total, completed, failed⟩ := recover_counts (recount status units now) now
  simp only [BatchStatus.isComplete, Bool.and_eq_true, decide_eq_true_eq]
  rw [total, completed, failed]
  simp only [recount]
  split <;> omega

theorem isComplete_transitionTo (phase : BatchPhase) (message : Option String) :
    ({ status.transitionTo phase now with error := message }).isComplete = status.isComplete := rfl

/-- Failing the batch changes none of its counters. -/
theorem reconcileRunning_complete_iff :
    (reconcileRunning spec status units now).isComplete = true ↔
      countStatus units (· = .processing) = 0 ∧
        0 < countStatus units (· = .complete) + countStatus units isFailure := by
  rw [← recount_complete_iff status units now]
  unfold reconcileRunning
  dsimp only
  split
  · rw [isComplete_transitionTo]
  · split
    · rw [isComplete_transitionTo]
    · rfl

/-- A `Running` batch stays so exactly if the counted failures are within the limit and,
when something failed, something is still being processed. -/
theorem reconcileRunning_running_iff (running : status.phase = .running) :
    (reconcileRunning spec status units now).phase = .running ↔
      countStatus units isFailure ≤ spec.backoffLimit ∧
        (countStatus units isFailure = 0 ∨ 0 < countStatus units (· = .processing)) := by
  obtain ⟨-, -, failed⟩ := recover_counts (recount status units now) now
  have counted : (recount status units now).workUnitsFailed = countStatus units isFailure := rfl
  have complete := recount_complete_iff status units now
  have same : (recover (recount status units now) now).phase = .running := by
    rcases recover_phase (recount status units now) now with same | ⟨failedBefore, -⟩
    · exact same.trans running
    · cases running.symm.trans failedBefore
  unfold reconcileRunning
  dsimp only
  split
  · rename_i exceeded
    simp only [BatchStatus.shouldFail, decide_eq_true_eq, failed, counted] at exceeded
    refine iff_of_false (by simp) ?_
    omega
  · rename_i within
    simp only [BatchStatus.shouldFail, decide_eq_true_eq, failed, counted] at within
    split
    · rename_i finished
      rw [failed, counted, complete] at finished
      refine iff_of_false (by simp) ?_
      omega
    · rename_i unfinished
      rw [failed, counted, complete] at unfinished
      refine iff_of_true same ?_
      omega

end

/-- For every store with fewer units in the batch's range than the scan limit and every
status: reconciling keeps the promise exactly if the counters tell open units from finished
ones. -/
theorem running_while_open_iff (spec : BatchSpec) (status : BatchStatus)
    (units : Kv String WorkUnit) (now : Time) (running : status.phase = .running)
    (few : (inRange units spec.batchId).length < 10000) :
    RunsWhileOpen spec.backoffLimit ((batchUnits units spec.batchId).map Prod.snd)
        (reconcileRunning spec status (scanBatchUnits units spec.batchId) now) ↔
      CountersTell spec.backoffLimit ((batchUnits units spec.batchId).map Prod.snd)
        (inRange units spec.batchId) := by
  rw [scanBatchUnits_inRange few]
  generalize (batchUnits units spec.batchId).map Prod.snd = own
  generalize inRange units spec.batchId = scanned
  constructor
  · rintro ⟨keeps, completes⟩ someOpen
    have incomplete : ¬ (reconcileRunning spec status scanned now).isComplete = true := by
      intro complete
      obtain ⟨unit, member, isOpen⟩ := someOpen
      rw [completes complete unit member] at isOpen
      cases isOpen
    rw [reconcileRunning_complete_iff] at incomplete
    refine ⟨by omega, ?_⟩
    by_cases dead : countStatus own (· = .dead) ≤ spec.backoffLimit
    · exact .inl ((reconcileRunning_running_iff running).mp (keeps someOpen dead)).1
    · exact .inr (by omega)
  · intro tell
    refine ⟨?_, ?_⟩
    · intro someOpen dead
      have counters := tell someOpen
      rw [reconcileRunning_running_iff running]
      omega
    · intro complete unit member
      rw [reconcileRunning_complete_iff] at complete
      by_contra isOpen
      have counters := tell ⟨unit, member, by simpa using isOpen⟩
      omega

/-- A spec that allows three failures. -/
def nightlyJob : BatchSpec :=
  ⟨"jobs", "a", ["s3://bucket/in/"], "s3://bucket/out", "cfg", 3⟩

def storedUnit (unit : WorkUnit) : Kv String WorkUnit := Kv.empty.put (unitKey "jobs:a" "u") unit

/-- One unit being processed: the batch runs on. -/
theorem processing_batch_runs :
    ((BatchStatus.new 0).transitionTo .running 0).phase = .running ∧
    RunsWhileOpen 3
      ((batchUnits (storedUnit ((WorkUnit.withId "u" "jobs:a" [] "out" "cfg" 0).claimedBy "w" 1))
        "jobs:a").map Prod.snd)
      (reconcileRunning nightlyJob ((BatchStatus.new 0).transitionTo .running 0)
        (scanBatchUnits (storedUnit ((WorkUnit.withId "u" "jobs:a" [] "out" "cfg" 0).claimedBy "w" 1))
          nightlyJob.batchId) 2) := by
  refine ⟨rfl, (running_while_open_iff nightlyJob _ _ 2 rfl (by decide)).mpr ?_⟩
  intro _
  exact ⟨.inl (by decide), .inl (by decide)⟩

/-- The only unit has failed once and may be claimed twice more, but the batch has failed. -/
theorem retried_unit_fails_batch : ¬ ∀ (spec : BatchSpec) (status : BatchStatus)
    (units : Kv String WorkUnit) (now : Time), status.phase = .running →
    (inRange units spec.batchId).length < 10000 →
    RunsWhileOpen spec.backoffLimit ((batchUnits units spec.batchId).map Prod.snd)
      (reconcileRunning spec status (scanBatchUnits units spec.batchId) now) := by
  intro always
  have promise := always nightlyJob ((BatchStatus.new 0).transitionTo .running 0)
    (storedUnit (((WorkUnit.withId "u" "jobs:a" [] "out" "cfg" 0).claimedBy "w" 1).fail "lost" 2)) 3
    rfl (by decide)
  have left := promise.running (by decide) (by decide)
  revert left
  decide

end Roboflow.Batch
