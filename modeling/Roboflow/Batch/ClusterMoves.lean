import Roboflow.Batch.BatchCluster

/-! What a step of the cluster can do. The step function is taken apart here once:
a step runs the work queue, moves one task to its next place, puts a status or
deletes one. -/
namespace Roboflow.Batch
open Library Merge


namespace Cluster

variable (s : Cluster) (task : Nat) (call : BatchCall)

@[simp] theorem setCall_self : (s.setCall task call).tasks task = call := by
  simp [setCall]

theorem setCall_other (different : other ≠ task) :
    (s.setCall task call).tasks other = s.tasks other := by
  simp [setCall, different]

end Cluster

/-- Discovery ends in one of two phases. -/
theorem finalize_phase {work : Discovery} {status : BatchStatus}
    (final : work.finalize now = some status) :
    status.phase = .failed ∨ status.phase = .running := by
  simp only [Discovery.finalize] at final
  split at final
  · cases final
  · split at final
    · cases final
      exact .inl rfl
    · cases final
      exact .inr rfl

/-- The call has put `Merging` for this batch, and has not answered yet. -/
def BatchCall.merges (batchId : String) : BatchCall → Bool
  | .writing .claimMerge _ _ _ _ => false
  | .writing _ _ _ _ next | .indexing _ _ _ next | .unindexing _ _ next => next.merges batchId
  | .verifying claim | .preparing claim | .rollingBack claim | .starting claim _
  | .executing claim _ | .completing claim _ _ | .failing claim _ | .closing claim _
  | .closingPut claim _ _ => claim.batchId = batchId
  | .idle | .scanning _ _ | .discovering _ | .claiming _ => false

/-- Every way a step takes a task from one place to another without writing a
status or a unit. -/
inductive Moves (config : ClusterConfig) (s : Cluster) :
    ClusterAction → BatchCall → BatchCall → ClusterOut → Prop where
  | reconciles (stored : s.statuses.get spec.batchId = found)
      (current : found.getD (.new now) = status) :
      Moves config s (.reconcile task spec now) .idle
        (saving .reconcile spec.batchId (found.map (·.phase)) status.phase
          (reconcilePhase config.discoveryTimeout spec status now)) .working
  | scans (stored : s.statuses.get spec.batchId = some status)
      (phase : status.phase = .running ∨ status.phase = .failed) :
      Moves config s (.reconcile task spec now) .idle (.scanning spec status) .working
  | recounts (call : s.tasks task = .scanning spec status) :
      Moves config s (.scanUnits task now) (.scanning spec status)
        (saving .reconcile spec.batchId (some status.phase) status.phase
          (reconcileRunning spec status (scanBatchUnits s.work.units spec.batchId) now)) .working
  | cancels (stored : s.statuses.get batchId = some status)
      (active : status.phase.isActive ∨ status.phase = .pending) :
      Moves config s (.cancel task batchId now) .idle
        (saving .cancel batchId (some status.phase) status.phase
          (status.transitionTo .cancelled now)) .working
  | discovers (stored : s.statuses.get spec.batchId = found)
      (current : found.getD (.new now) = status) (pending : status.phase = .pending) :
      Moves config s (.scanBatch task spec now) .idle
        (.writing .scanner spec.batchId (found.map (·.phase)) (initializeDiscovery spec status now)
          (.indexing spec.batchId .pending .discovering
            (.discovering {
              spec := spec
              status := initializeDiscovery spec status now
              remaining := spec.sources }))) .working
  | resumes (stored : s.statuses.get spec.batchId = some status)
      (phase : status.phase = .discovering) (remaining : List String) :
      Moves config s (.scanBatch task spec now) .idle
        (.discovering { spec := spec, status := status, remaining := remaining }) .working
  | skips (rest : List String) :
      Moves config s (.scanSource task listed) (.discovering work)
        (.discovering { work with remaining := rest }) .working
  | saves (rest : List String) (files jobs : Nat) :
      Moves config s (.scanSource task listed) (.discovering work)
        (.writing .scanner work.spec.batchId (some work.status.phase)
          (work.scanned rest files jobs).status (.discovering (work.scanned rest files jobs)))
        .working
  | concludes (final : work.finalize now = some status) :
      Moves config s (.finishScan task now) (.discovering work)
        (.writing .scanner work.spec.batchId (some work.status.phase) status
          (.indexing work.spec.batchId .discovering status.phase .idle)) .working
  | indexes :
      Moves config s (.indexPut task) (.indexing batch old target next) (.unindexing batch old next)
        .working
  | unindexes : Moves config s (.indexDelete task) (.unindexing batch old next) next .working
  | losesIndex (old target : BatchPhase) :
      Moves config s (.lose task message) (.indexing batch old target (.closing claim result))
        (.closing claim result) .working
  | losesUnindex :
      Moves config s (.lose task message) (.unindexing batch old (.closing claim result))
        (.closing claim result) .working
  | begins : Moves config s (.claimMerge task claim) .idle (.claiming claim) .working
  | claims (stored : s.statuses.get claim.batchId = some status) (running : status.phase = .running)
      (complete : status.isComplete = true) :
      Moves config s (.claimGet task now) (.claiming claim)
        (.writing .claimMerge claim.batchId (some status.phase) (status.transitionTo .merging now)
          (.indexing ("statuses/" ++ claim.batchId) .running .merging (.verifying claim))) .working
  | verifies : Moves config s (.verify task) (.verifying claim) (.preparing claim) .working
  | unready : Moves config s (.prepare task worker now) (.preparing claim) (.rollingBack claim) .working
  | refuses (reason : String) :
      Moves config s (.prepare task worker now) (.preparing claim) (.failing claim reason) .working
  | prepares (state : MergeState) :
      Moves config s (.prepare task worker now) (.preparing claim) (.starting claim state) .working
  | executes :
      Moves config s (.saveMerge task) (.starting claim state) (.executing claim state)
        (.executes claim.batchId)
  | succeeds (frames : Nat) :
      Moves config s (.execute task answer) (.executing claim state)
        (.completing claim state.outputPath frames) .working
  | breaks (reason : String) :
      Moves config s (.execute task answer) (.executing claim state) (.failing claim reason) .working
  | completes (stored : s.statuses.get claim.batchId = some status) :
      Moves config s (.completeGet task now) (.completing claim outputPath frames)
        (.writing .completeMerge claim.batchId (some status.phase) (status.transitionTo .complete now)
          (.indexing claim.batchId .merging .complete (.closing claim (.success outputPath frames))))
        .working
  | fails (stored : s.statuses.get claim.batchId = some status) :
      Moves config s (.failGet task now) (.failing claim reason)
        (.writing .failMerge claim.batchId (some status.phase)
          { status.transitionTo .failed now with error := some reason }
          (indexed claim.batchId status.phase .failed (.closing claim (.failed reason)))) .working
  | closes (state : MergeState) :
      Moves config s (.closeGet task now) (.closing claim result) (.closingPut claim state result)
        .working
  | marksComplete (stored : s.statuses.get batchId = some status) :
      Moves config s (.mark task batchId none now) .idle
        (saving .markComplete batchId (some status.phase) status.phase
          (status.transitionTo .complete now)) .working
  | marksFailed (stored : s.statuses.get batchId = some status) :
      Moves config s (.mark task batchId (some reason) now) .idle
        (saving .markFailed batchId (some status.phase) status.phase
          { status.transitionTo .failed now with error := some reason }) .working
  | ends (unexecuted : ∀ batchId, out ≠ .executes batchId)
      (succeeded : ∀ batchId path frames, out = .merged batchId (.success path frames) →
        call.merges batchId = true) :
      Moves config s action call .idle out

/-- Every way a step changes the cluster; merge states, index and permits apart. -/
inductive ClusterMove (config : ClusterConfig) (s : Cluster) :
    ClusterAction → ClusterOut → Cluster → Prop where
  | works (moved : workStep config.work s.work action = some (work, out)) :
      ClusterMove config s (.work action) (.work out) { s with work := work }
  | rests (unexecuted : ∀ batchId, out ≠ .executes batchId)
      (unmerged : ∀ batchId result, out ≠ .merged batchId result) :
      ClusterMove config s action out s
  | moves (task : Nat) (moved : Moves config s action (s.tasks task) next out)
      (statuses : s'.statuses = s.statuses) (work : s'.work = s.work)
      (tasks : s'.tasks = Function.update s.tasks task next) : ClusterMove config s action out s'
  | puts (call : s.tasks task = .writing writer batchId seen status next) :
      ClusterMove config s (.put task) .working
        ({ s with statuses := s.statuses.put batchId status }.setCall task next)
  | deletes (call : s.tasks task = .rollingBack claim) :
      ClusterMove config s (.rollback task) (.merged claim.batchId .notReady)
        ({ s with statuses := s.statuses.delete claim.batchId }.endMerge config task claim)

/-- Only a call that has put `Merging` answers success when it is cut short. -/
private theorem merges_of_onError {call : BatchCall} (holder : call.claim = some claim)
    (answered : call.onError message = some (.success path frames)) :
    call.merges claim.batchId = true := by
  induction call with
  | writing writer _ _ _ next ih =>
    cases writer <;> simp_all [BatchCall.claim, BatchCall.onError, BatchCall.merges]
  | closing _ result => cases result <;> simp_all [BatchCall.onError]
  | _ => simp_all [BatchCall.claim, BatchCall.onError, BatchCall.merges]

variable {config : ClusterConfig} {s : Cluster}

/-- A step that only moves its task. -/
private theorem moves_setCall (call : s.tasks task = before)
    (moved : Moves config s action before next out) :
    ClusterMove config s action out (s.setCall task next) := by
  subst call
  exact .moves task moved rfl rfl rfl

/-- A step that ends its call. -/
private theorem moves_endMerge (call : s.tasks task = before)
    (moved : Moves config s action before .idle out) :
    ClusterMove config s action out (s.endMerge config task claim) := by
  subst call
  exact .moves task moved rfl rfl rfl

/-- An answer other than success asks nothing of the call it ends. -/
private theorem moves_ends (unmerged : ∀ batchId path frames,
    out ≠ .merged batchId (.success path frames)) (unexecuted : ∀ batchId, out ≠ .executes batchId) :
    Moves config s action call .idle out :=
  .ends unexecuted fun batchId path frames same => absurd same (unmerged batchId path frames)

/-- A call that has put `Merging` may answer anything. -/
private theorem moves_answers {claim : MergeClaim} (holder : call.merges claim.batchId = true) :
    Moves config s action call .idle (.merged claim.batchId result) := by
  refine .ends (by simp) ?_
  intro batchId path frames same
  cases same
  exact holder

/-- The step function has no other effect than the listed moves. -/
theorem clusterMove_of_step (moved : clusterStep config s action = some (s', out)) :
    ClusterMove config s action out s' := by
  cases action with
  | work action =>
    simp only [clusterStep, Option.map_eq_some_iff] at moved
    obtain ⟨⟨work, answer⟩, worked, same⟩ := moved
    cases same
    exact .works worked
  | reconcile task spec now =>
    simp only [clusterStep] at moved
    split at moved
    · rename_i idle
      cases found : s.statuses.get spec.batchId with
      | none =>
        simp only [found, Option.getD_none, BatchStatus.new, Option.map_none] at moved
        cases moved
        exact moves_setCall idle (.reconciles found rfl)
      | some status =>
        simp only [found, Option.getD_some, Option.map_some] at moved
        split at moved
        · cases moved
          exact .rests (by simp) (by simp)
        · cases moved
          exact .rests (by simp) (by simp)
        · rename_i running
          cases moved
          exact moves_setCall idle (.scans found (.inl running))
        · rename_i failed
          cases moved
          exact moves_setCall idle (.scans found (.inr failed))
        · cases moved
          exact moves_setCall idle (.reconciles found rfl)
    · cases moved
  | scanUnits task now =>
    simp only [clusterStep] at moved
    split at moved
    · rename_i scanning
      cases moved
      exact moves_setCall scanning (.recounts scanning)
    · cases moved
  | cancel task batchId now =>
    simp only [clusterStep] at moved
    split at moved
    · rename_i idle
      split at moved
      · cases moved
        exact .rests (by simp) (by simp)
      · rename_i stored
        split at moved
        · rename_i active
          cases moved
          exact moves_setCall idle (.cancels stored active)
        · cases moved
          exact .rests (by simp) (by simp)
    · cases moved
  | scanBatch task spec now =>
    simp only [clusterStep] at moved
    split at moved
    · rename_i idle
      split at moved
      · rename_i pending
        cases moved
        exact moves_setCall idle (.discovers rfl rfl pending)
      · rename_i discovering
        cases found : s.statuses.get spec.batchId with
        | none => simp [found, BatchStatus.new] at discovering
        | some status =>
          simp only [found, Option.getD_some] at discovering moved
          cases moved
          exact moves_setCall idle (.resumes found discovering _)
      · cases moved
        exact .rests (by simp) (by simp)
    · cases moved
  | scanSource task found =>
    simp only [clusterStep] at moved
    split at moved
    · rename_i discovering
      split at moved
      · cases moved
      · cases moved
        exact moves_setCall discovering (.skips _)
      · cases moved
        exact moves_setCall discovering (.saves _ _ _)
    · cases moved
  | finishScan task now =>
    simp only [clusterStep] at moved
    split at moved
    · rename_i discovering
      split at moved
      · split at moved
        · cases moved
          exact moves_setCall discovering (moves_ends (by simp) (by simp))
        · rename_i final
          cases moved
          exact moves_setCall discovering (.concludes final)
      · cases moved
    · cases moved
  | put task =>
    simp only [clusterStep] at moved
    split at moved
    · rename_i writing
      cases moved
      exact .puts writing
    · cases moved
  | indexPut task =>
    simp only [clusterStep] at moved
    split at moved
    · rename_i indexing
      cases moved
      exact .moves task (by rw [indexing]; exact .indexes) rfl rfl rfl
    · cases moved
  | indexDelete task =>
    simp only [clusterStep] at moved
    split at moved
    · rename_i unindexing
      cases moved
      exact .moves task (by rw [unindexing]; exact .unindexes) rfl rfl rfl
    · cases moved
  | claimMerge task claim =>
    simp only [clusterStep] at moved
    split at moved
    · rename_i idle
      split at moved
      · cases moved
        exact .moves task (by rw [idle]; exact .begins) rfl rfl rfl
      · cases moved
        exact .rests (by simp) (by simp)
    · cases moved
  | claimGet task now =>
    simp only [clusterStep] at moved
    split at moved
    · rename_i claiming
      split at moved
      · cases moved
        exact moves_endMerge claiming (moves_ends (by simp) (by simp))
      · rename_i stored
        split at moved
        · cases moved
          exact moves_endMerge claiming (moves_ends (by simp) (by simp))
        · rename_i running
          split at moved
          · cases moved
            exact moves_endMerge claiming (moves_ends (by simp) (by simp))
          · rename_i complete
            cases moved
            exact moves_setCall claiming
              (.claims stored (not_not.mp running) (by simpa using complete))
    · cases moved
  | verify task =>
    simp only [clusterStep] at moved
    split at moved
    · rename_i verifying
      split at moved
      · cases moved
        exact moves_setCall verifying .verifies
      · cases moved
        exact moves_endMerge verifying (moves_ends (by simp) (by simp))
    · cases moved
  | prepare task worker now =>
    simp only [clusterStep] at moved
    split at moved
    · rename_i preparing
      split at moved
      · cases moved
        exact moves_setCall preparing .unready
      · split at moved
        · cases moved
          exact moves_setCall preparing (.refuses _)
        · cases moved
          exact moves_setCall preparing (.prepares _)
    · cases moved
  | rollback task =>
    simp only [clusterStep] at moved
    split at moved
    · rename_i rollingBack
      cases moved
      exact .deletes rollingBack
    · cases moved
  | saveMerge task =>
    simp only [clusterStep] at moved
    split at moved
    · rename_i starting
      cases moved
      exact .moves task (by rw [starting]; exact .executes) rfl rfl rfl
    · cases moved
  | execute task result =>
    simp only [clusterStep] at moved
    split at moved
    · rename_i executing
      split at moved
      · cases moved
        exact moves_setCall executing (.succeeds _)
      · cases moved
        exact moves_setCall executing (.breaks _)
    · cases moved
  | completeGet task now =>
    simp only [clusterStep] at moved
    split at moved
    · rename_i completing
      split at moved
      · cases moved
        exact moves_endMerge completing (moves_ends (by simp) (by simp))
      · rename_i stored
        cases moved
        exact moves_setCall completing (.completes stored)
    · cases moved
  | failGet task now =>
    simp only [clusterStep] at moved
    split at moved
    · rename_i failing
      split at moved
      · cases moved
        exact moves_endMerge failing (moves_ends (by simp) (by simp))
      · rename_i stored
        cases moved
        exact moves_setCall failing (.fails stored)
    · cases moved
  | closeGet task now =>
    simp only [clusterStep] at moved
    split at moved
    · rename_i closing
      split at moved
      · cases moved
        exact moves_endMerge closing (moves_answers (by simp [BatchCall.merges]))
      · cases moved
        exact moves_setCall closing (.closes _)
    · cases moved
  | closePut task =>
    simp only [clusterStep] at moved
    split at moved
    · rename_i closingPut
      cases moved
      exact .moves task
        (by rw [closingPut]; exact moves_answers (by simp [BatchCall.merges])) rfl rfl rfl
    · cases moved
  | mark task batchId reason now =>
    simp only [clusterStep] at moved
    split at moved
    · rename_i idle
      split at moved
      · cases moved
        exact .rests (by simp) (by simp)
      · rename_i stored
        split at moved
        · cases moved
          exact moves_setCall idle (.marksComplete stored)
        · cases moved
          exact moves_setCall idle (.marksFailed stored)
    · cases moved
  | lose task message =>
    simp only [clusterStep] at moved
    split at moved
    · cases moved
    · rename_i indexing
      cases moved
      exact moves_setCall indexing (.losesIndex _ _)
    · rename_i unindexing
      cases moved
      exact moves_setCall unindexing .losesUnindex
    · split at moved
      · cases moved
        exact moves_setCall rfl (moves_ends (by simp) (by simp))
      · rename_i holder
        cases moved
        cases answered : (s.tasks task).onError message with
        | none => exact moves_endMerge rfl (moves_ends (by simp) (by simp))
        | some result =>
          refine moves_endMerge rfl (.ends (by simp) ?_)
          intro batchId path frames same
          cases same
          exact merges_of_onError holder answered

/-- A fact about calls that idling has, that a put hands on, and that every other
move keeps. -/
theorem ClusterMove.calls {P : BatchCall → Prop} (moved : ClusterMove config s action out s')
    (idle : P .idle)
    (handed : ∀ writer batchId seen status next,
      P (.writing writer batchId seen status next) → P next)
    (kept : ∀ call next, P call → Moves config s action call next out → P next)
    (before : ∀ task, P (s.tasks task)) : ∀ task, P (s'.tasks task) := by
  have one : ∀ task next, P next → ∀ other, P (Function.update s.tasks task next other) := by
    intro task next good other
    by_cases here : other = task
    · subst here
      simpa using good
    · simpa [here] using before other
  cases moved with
  | works _ => exact before
  | rests _ _ => exact before
  | moves task step _ _ tasks =>
    rw [tasks]
    exact one task _ (kept _ _ (before task) step)
  | @puts task _ _ _ _ next call =>
    have held := before task
    rw [call] at held
    exact one task next (handed _ _ _ _ _ held)
  | @deletes task _ _ => exact one task .idle idle

end Roboflow.Batch
