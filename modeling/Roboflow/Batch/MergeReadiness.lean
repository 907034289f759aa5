import Roboflow.Batch.ClusterMoves

/-! When a batch is merged, and which of its units are complete then. The finalizer
trusts the counters of the status. The controller takes them from a scan that counts
complete, failed, dead and processing units and makes their sum the total, so units
it does not count, or does not reach, are taken for none. -/
namespace Roboflow.Batch
open Library Merge

/-- Every unit stored for the batch is complete. -/
def AllComplete (units : Kv String WorkUnit) (batchId : String) : Prop :=
  ∀ unitId unit, units.get (unitKey batchId unitId) = some unit → unit.status = .complete

/-- `try_claim_merge` stores `Merging` for the batch in this step. -/
def StoresMerging (e : Transition Cluster ClusterAction ClusterOut) (batchId : String) : Prop :=
  ∃ task seen status next, e.act = .put task ∧
    e.pre.tasks task = .writing .claimMerge batchId seen status next ∧ status.phase = .merging

/-- The stored phase of the batch becomes `Complete` in this step. -/
def BecomesComplete (e : Transition Cluster ClusterAction ClusterOut) (batchId : String) : Prop :=
  (e.pre.statuses.get batchId).map (·.phase) ≠ some .complete ∧
    (e.post.statuses.get batchId).map (·.phase) = some .complete

/-- A step that merges or completes no batch with a unit left to do. -/
def MergesWhenDone (e : Transition Cluster ClusterAction ClusterOut) : Prop :=
  ∀ batchId, StoresMerging e batchId ∨ BecomesComplete e batchId →
    AllComplete e.post.work.units batchId

/-- The controller, the workers, the reaper and `try_claim_merge`. -/
def ClusterAction.isMergeOrWork : ClusterAction → Bool
  | .work action => !action.isCreate
  | .reconcile .. | .scanUnits .. => true
  | action => action.isMerge

/-- The statuses that `reconcile_running` counts. -/
def isCounted : WorkUnitStatus → Bool
  | .complete | .failed | .dead | .processing => true
  | .pending | .cancelled => false

/-- The entries stored for one batch. -/
def batchUnits (units : Kv String WorkUnit) (batchId : String) : List (String × WorkUnit) :=
  units.entries.filter fun entry => (batchId ++ "/").toList.isPrefixOf entry.1.toList

/-- A scan that counts a complete unit and neither a failed nor a processing one. -/
def looksComplete (units : List WorkUnit) : Bool :=
  0 < countStatus units (· = .complete) && countStatus units isFailure = 0 &&
    countStatus units (· = .processing) = 0

/-- A scan that looks complete has counted every unit of its batch, and no worker
fails a unit that is complete by then. -/
def CountsEveryUnit (s : Cluster) (action : ClusterAction) : Bool :=
  action.isMergeOrWork && match action with
    | .scanUnits task _ =>
      match s.tasks task with
      | .scanning spec _ =>
        let scanned := scanBatchUnits s.work.units spec.batchId
        !looksComplete scanned || (batchUnits s.work.units spec.batchId).all fun entry =>
          isCounted entry.2.status && scanned.contains entry.2
      | _ => true
    | .work (.failPut task) =>
      match (s.work.tasks task).call with
      | .failing key _ _ => (s.work.units.get key).any fun unit => unit.status ≠ .complete
      | _ => true
    | _ => true

/-! ### What the scan and the workers leave -/

theorem mem_batchUnits {units : Kv String WorkUnit}
    (stored : units.get (unitKey batchId unitId) = some unit) :
    (unitKey batchId unitId, unit) ∈ batchUnits units batchId := by
  refine List.mem_filter.mpr ⟨units.mem_entries.mpr stored, ?_⟩
  simp [unitKey, String.toList_append]

/-- A unit that is scanned and counted, where none failed and none is processing. -/
theorem complete_of_counted {scanned : List WorkUnit} (looks : looksComplete scanned = true)
    (member : unit ∈ scanned) (counted : isCounted unit.status = true) : unit.status = .complete := by
  simp only [looksComplete, Bool.and_eq_true, decide_eq_true_eq] at looks
  obtain ⟨⟨_, noFailure⟩, noProcessing⟩ := looks
  have unfailed := List.countP_eq_zero.mp noFailure unit member
  have unprocessed := List.countP_eq_zero.mp noProcessing unit member
  cases status : unit.status <;> simp_all [isCounted, isFailure]

/-- A counting scan that looks complete saw only complete units of its batch. -/
theorem allComplete_of_scan (counts : CountsEveryUnit s (.scanUnits task now) = true)
    (call : s.tasks task = .scanning spec status)
    (looks : looksComplete (scanBatchUnits s.work.units spec.batchId) = true) :
    AllComplete s.work.units spec.batchId := by
  intro unitId unit stored
  have every := (Bool.and_eq_true _ _).mp counts |>.2
  simp only [call, looks, Bool.not_true, Bool.false_or, List.all_eq_true] at every
  have entry := every _ (mem_batchUnits stored)
  simp only [Bool.and_eq_true, List.contains_iff_mem] at entry
  exact complete_of_counted looks entry.2 entry.1

/-- Replacing a unit that was not complete, or by a complete one, undoes nothing. -/
theorem AllComplete.put {units : Kv String WorkUnit} (done : AllComplete units batchId)
    (harmless : record.status = .complete ∨
      ∃ unit, units.get key = some unit ∧ unit.status ≠ .complete) :
    AllComplete (units.put key record) batchId := by
  intro unitId unit stored
  rw [Kv.get_put] at stored
  split at stored
  · rename_i here
    obtain rfl := Option.some.inj stored
    rcases harmless with complete | ⟨old, was, incomplete⟩
    · exact complete
    · rw [← here] at was
      exact absurd (done unitId old was) incomplete
  · exact done unitId unit stored

/-- What `complete_work_unit` is about to put is complete. -/
def Call.CompletesUnit : Call → Prop
  | .completing _ unit => unit.status = .complete
  | _ => True

/-- No step of a worker or of the reaper takes completeness back. -/
theorem AllComplete.work {s : Cluster} (done : AllComplete s.work.units batchId)
    (completing : ∀ task, (s.work.tasks task).call.CompletesUnit)
    (counts : CountsEveryUnit s (.work action) = true) (moved : WorkMove s.work action out after) :
    AllComplete after.units batchId := by
  obtain ⟨uncreated, onTime⟩ := (Bool.and_eq_true _ _).mp counts
  cases moved with
  | quiet still _ =>
    rw [still.units]
    exact done
  | dropped => exact done
  | claimed call parsed stored claimable =>
    refine done.put (.inr ⟨_, stored, fun complete => ?_⟩)
    rcases ((WorkUnit.isClaimable_iff _).mp claimable).1 with status | status <;>
      simp [status] at complete
  | completeRead => exact done
  | @completed task _ _ call =>
    have complete := completing task
    rw [call] at complete
    exact done.put (.inl complete)
  | failRead => exact done
  | @failedRetry task key _ _ call _ | @failedDead task key _ _ call _ =>
    simp only [call, Option.any_eq_true, decide_eq_true_eq] at onTime
    obtain ⟨unit, stored, incomplete⟩ := onTime
    exact done.put (.inr ⟨unit, stored, incomplete⟩)
  | requeued => exact done
  | reclaimed _ stored processing _ =>
    exact done.put (.inr ⟨_, stored, by simp [processing]⟩)
  | created => cases uncreated

/-! ### What a status promises -/

/-- The statuses from which a batch is merged, or has been. -/
def BatchStatus.Ready (status : BatchStatus) : Prop :=
  status.phase = .merging ∨ status.phase = .complete ∨
    (status.phase = .running ∧ status.isComplete = true)

theorem not_ready_of_failed {status : BatchStatus} (failed : status.phase = .failed) :
    ¬ status.Ready := by
  simp [BatchStatus.Ready, failed]

/-- Reconciling without a scan makes no status ready. -/
theorem ready_of_reconcilePhase (ready : (reconcilePhase timeout spec status now).Ready) :
    status.Ready := by
  unfold reconcilePhase at ready
  split at ready
  · rcases reconcilePending_phase spec status now with phase | phase <;>
      simp [BatchStatus.Ready, phase] at ready
  · rename_i discovering
    rcases reconcileDiscovering_phase timeout spec status now with phase | phase <;>
      simp [BatchStatus.Ready, phase, discovering] at ready
  · exact ready

/-- Reconciling with a scan makes a status ready only if the scan looks complete. -/
theorem looksComplete_of_ready {status : BatchStatus} {units : List WorkUnit}
    (phase : status.phase = .running ∨ status.phase = .failed)
    (ready : (reconcileRunning spec status units now).Ready) : looksComplete units = true := by
  have running : (reconcileRunning spec status units now).phase = .running := by
    rcases reconcileRunning_phase spec status units now with same | failed | ⟨_, recovers⟩
    · rcases phase with running | failed
      · exact same.trans running
      · exact absurd ready (not_ready_of_failed (same.trans failed))
    · exact absurd ready (not_ready_of_failed failed)
    · exact recovers
  have complete : (reconcileRunning spec status units now).isComplete = true := by
    simpa [BatchStatus.Ready, running] using ready
  obtain ⟨some, noFailure, noProcessing⟩ := counts_of_running_complete running complete
  simp [looksComplete, some, noFailure, noProcessing]

/-- What the copies in a call, and how far it got, promise of the batches done. -/
def BatchCall.Relies (done : String → Prop) : BatchCall → Prop
  | .idle | .claiming _ => True
  | .scanning _ status => status.phase = .running ∨ status.phase = .failed
  | .discovering _ => False
  | .writing _ batchId _ status next => (status.Ready → done batchId) ∧ next.Relies done
  | .indexing _ _ _ next | .unindexing _ _ next => next.Relies done
  | .verifying claim | .preparing claim | .rollingBack claim | .starting claim _
  | .executing claim _ | .completing claim _ _ | .failing claim _ | .closing claim _
  | .closingPut claim _ _ => done claim.batchId

theorem BatchCall.Relies.mono {call : BatchCall} (more : ∀ batchId, done batchId → done' batchId)
    (relies : call.Relies done) : call.Relies done' := by
  induction call with
  | writing _ batchId _ _ _ ih => exact ⟨fun ready => more batchId (relies.1 ready), ih relies.2⟩
  | indexing _ _ _ _ ih | unindexing _ _ _ ih => exact ih relies
  | idle | claiming => trivial
  | scanning => exact relies
  | discovering => exact relies
  | _ => exact more _ relies

@[simp] theorem indexed_relies :
    (indexed batchId old target next).Relies done ↔ next.Relies done := by
  unfold indexed
  split <;> rfl

@[simp] theorem saving_relies :
    (saving writer batchId seen old status).Relies done ↔ (status.Ready → done batchId) := by
  simp [saving, BatchCall.Relies]

/-- Stored statuses and calls promise only batches whose units are all complete. -/
structure PromisesKept (s : Cluster) : Prop where
  stored : ∀ batchId status, s.statuses.get batchId = some status → status.Ready →
    AllComplete s.work.units batchId
  calls : ∀ task, (s.tasks task).Relies (AllComplete s.work.units)
  completing : ∀ task, (s.work.tasks task).call.CompletesUnit

/-- Every allowed move hands on only promises that hold. -/
theorem relies_of_moves (kept : PromisesKept s) (counts : CountsEveryUnit s action = true)
    (relies : call.Relies (AllComplete s.work.units)) (moved : Moves config s action call next out) :
    next.Relies (AllComplete s.work.units) := by
  cases moved with
  | @reconciles found now status task spec stored current =>
    rw [saving_relies]
    intro ready
    have was := ready_of_reconcilePhase ready
    cases found with
    | none =>
      subst current
      simp [BatchStatus.Ready, BatchStatus.new] at was
    | some copy =>
      obtain rfl : copy = status := current
      exact kept.stored _ _ stored was
  | scans _ phase => exact phase
  | recounts call =>
    rw [saving_relies]
    exact fun ready => allComplete_of_scan counts call (looksComplete_of_ready relies ready)
  | cancels | discovers | resumes | marksComplete | marksFailed => cases counts
  | skips | saves | concludes => cases relies
  | indexes => exact relies
  | unindexes => exact relies
  | losesIndex => exact relies
  | losesUnindex => exact relies
  | begins => trivial
  | claims stored running complete =>
    have done := kept.stored _ _ stored (.inr (.inr ⟨running, complete⟩))
    exact ⟨fun _ => done, done⟩
  | completes => exact ⟨fun _ => relies, relies⟩
  | fails =>
    refine ⟨fun ready => absurd ready (not_ready_of_failed rfl), ?_⟩
    exact indexed_relies.mpr relies
  | ends => trivial
  | _ => exact relies

/-! ### Steps and runs -/

namespace PromisesKept

/-- A put stores what its call promised. -/
theorem put (kept : PromisesKept s)
    (call : s.tasks task = .writing writer batchId seen status next) :
    PromisesKept ({ s with statuses := s.statuses.put batchId status }.setCall task next) := by
  have promised := kept.calls task
  rw [call] at promised
  refine ⟨fun other copy stored ready => ?_, fun other => ?_, kept.completing⟩
  · change (s.statuses.put batchId status).get other = some copy at stored
    rw [Kv.get_put] at stored
    split at stored
    · rename_i here
      obtain rfl := Option.some.inj stored
      rw [here]
      exact promised.1 ready
    · exact kept.stored other copy stored ready
  · by_cases here : other = task
    · subst here
      rw [Cluster.setCall_self]
      exact promised.2
    · rw [Cluster.setCall_other _ _ _ here]
      exact kept.calls other

/-- Every allowed step keeps the promises. -/
theorem step (kept : PromisesKept s) (counts : CountsEveryUnit s action = true)
    (moved : ClusterMove config s action out s') : PromisesKept s' := by
  cases moved with
  | works worked =>
    have worked := workMove_of_step worked
    have more : ∀ batchId, AllComplete s.work.units batchId → _ :=
      fun batchId done => done.work kept.completing counts worked
    refine ⟨fun batchId status stored ready => more batchId (kept.stored batchId status stored ready),
      fun task => (kept.calls task).mono more, ?_⟩
    refine calls_of_move ?_ (fun _ _ _ => rfl) (fun _ _ _ _ _ => trivial) (fun _ _ => trivial)
      kept.completing worked
    intro call unarmed
    cases call <;> simp_all [Call.armed, Call.CompletesUnit]
  | rests => exact kept
  | moves task step statuses work tasks =>
    refine ⟨by rw [statuses, work]; exact kept.stored, fun other => ?_,
      by rw [work]; exact kept.completing⟩
    rw [tasks, work]
    by_cases here : other = task
    · subst here
      simpa using relies_of_moves kept counts (kept.calls other) step
    · simpa [here] using kept.calls other
  | puts call => exact kept.put call
  | @deletes task claim call =>
    refine ⟨fun batchId status stored ready => ?_, fun other => ?_, kept.completing⟩
    · change (s.statuses.delete claim.batchId).get batchId = some status at stored
      rw [Kv.get_delete] at stored
      split at stored
      · cases stored
      · exact kept.stored batchId status stored ready
    · show (Function.update s.tasks task .idle other).Relies (AllComplete s.work.units)
      by_cases here : other = task
      · subst here
        simp [BatchCall.Relies]
      · simpa [here] using kept.calls other

end PromisesKept

/-- Over every schedule of controller, workers, reaper and `try_claim_merge` whose
scans count every unit of their batch before it looks complete, a batch is merged
and completed only when every unit stored for it is complete. -/
theorem merge_only_when_done {config : ClusterConfig} (idle : ∀ task, start.tasks task = .idle)
    (workersIdle : ∀ task, start.work.tasks task = {})
    (ready : ∀ batchId status, start.statuses.get batchId = some status → status.Ready →
      AllComplete start.work.units batchId)
    (run : Run ((cluster config).under (CountsEveryUnit · ·)) start history s) :
    ∀ e ∈ history, MergesWhenDone e := by
  intro e member batchId merges
  obtain ⟨older, before, moved⟩ := run.recorded member
  obtain ⟨counts, moved⟩ := (Machine.under_step _ _).mp moved
  have kept : PromisesKept e.pre := by
    apply before.invariant
    · exact ⟨ready, by simp [idle, BatchCall.Relies], by simp [workersIdle, Call.CompletesUnit]⟩
    · intro s action s' out kept moved
      obtain ⟨counts, moved⟩ := (Machine.under_step _ _).mp moved
      exact kept.step counts (clusterMove_of_step moved)
  have after := kept.step counts (clusterMove_of_step moved)
  rcases merges with ⟨task, seen, status, next, act, call, merging⟩ | ⟨_, becomes⟩
  · have stored : e.post.statuses.get batchId = some status := by
      rw [act] at moved
      simp only [cluster, clusterStep, call, Option.some.injEq, Prod.mk.injEq] at moved
      rw [← moved.1]
      exact Kv.get_put_self _ _ _
    exact after.stored batchId status stored (.inl merging)
  · obtain ⟨status, stored, complete⟩ := Option.map_eq_some_iff.mp becomes
    exact after.stored batchId status stored (.inr (.inl complete))

/-- A batch whose only unit is completed before the scan. -/
theorem merge_only_when_done_of_one_unit : ∃ history s,
    Run ((cluster ⟨⟨10, 30⟩, 3600, 1⟩).under (CountsEveryUnit · ·))
      (runningBatch [("u", .processing)]) history s ∧
    (∀ e ∈ history, MergesWhenDone e) ∧
    (s.statuses.get "jobs:b").map (·.phase) = some .complete := by
  obtain ⟨history, s, run, seen⟩ := Run.of_observation
    ((cluster ⟨⟨10, 30⟩, 3600, 1⟩).under (CountsEveryUnit · ·)) (runningBatch [("u", .processing)])
    [.reconcile 0 oneSource 1, .scanUnits 0 1, .put 0, .work (.completeGet 0 "jobs:b" "u" 2),
      .work (.completePut 0), .reconcile 0 oneSource 3, .scanUnits 0 3, .put 0,
      .claimMerge 1 ⟨0, "jobs:b", 1, "s3://out/"⟩, .claimGet 1 4, .put 1, .indexPut 1,
      .indexDelete 1, .verify 1, .prepare 1 "merge" 5, .saveMerge 1, .execute 1 (.ok 7),
      .completeGet 1 6, .put 1]
    (fun reached => (reached.2.statuses.get "jobs:b").map (·.phase)) (some .complete) (by decide)
  refine ⟨history, s, run, merge_only_when_done (fun _ => rfl) (fun _ => rfl) ?_ run, seen⟩
  intro batchId status stored ready
  simp only [runningBatch, Kv.get_put, Kv.get_empty] at stored
  split at stored
  · cases stored
    simp [BatchStatus.Ready, BatchStatus.isComplete, BatchStatus.new] at ready
  · cases stored

/-- One unit is complete and one still waits in the queue. The scan counts a total
of one, and the batch is merged without the other. -/
theorem pending_unit_left_out :
    ¬ ∀ history s, Run ((cluster ⟨⟨10, 30⟩, 3600, 1⟩).under fun _ action => action.isMergeOrWork)
        (runningBatch [("u", .complete), ("v", .pending)]) history s →
      ∀ e ∈ history, MergesWhenDone e := by
  intro done
  obtain ⟨history, s, run, seen⟩ := Run.of_observation
    ((cluster ⟨⟨10, 30⟩, 3600, 1⟩).under fun _ action => action.isMergeOrWork)
    (runningBatch [("u", .complete), ("v", .pending)])
    [.reconcile 0 oneSource 1, .scanUnits 0 1, .put 0, .claimMerge 1 ⟨0, "jobs:b", 1, "s3://out/"⟩,
      .claimGet 1 2, .put 1, .indexPut 1, .indexDelete 1, .verify 1, .prepare 1 "merge" 3,
      .saveMerge 1, .execute 1 (.ok 7), .completeGet 1 4, .put 1]
    (fun reached => reached.1.head?.map fun e =>
      ((e.pre.statuses.get "jobs:b").map (·.phase), (e.post.statuses.get "jobs:b").map (·.phase),
        (e.post.work.units.get "jobs:b/v").map (·.status)))
    (some (some .merging, some .complete, some .pending)) (by decide)
  cases history with
  | nil => simp at seen
  | cons e older =>
    simp only [List.head?_cons, Option.map_some, Option.some.injEq, Prod.mk.injEq] at seen
    obtain ⟨before, after, left⟩ := seen
    obtain ⟨unit, stored, pending⟩ := Option.map_eq_some_iff.mp left
    have becomes : BecomesComplete e "jobs:b" := ⟨by simp [before], after⟩
    have complete := done _ _ run e List.mem_cons_self "jobs:b" (.inr becomes) "v" unit stored
    rw [pending] at complete
    cases complete

end Roboflow.Batch
