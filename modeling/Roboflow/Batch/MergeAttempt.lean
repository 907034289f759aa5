import Roboflow.Batch.OneMerge
import Roboflow.Batch.PhaseIndex

/-! One call of `try_claim_merge`, run alone to its answer, and what the finalizer
makes of the answer. The call puts `Merging` before it looks at the merge state;
when that state does not let it start, its rollback deletes the status. A missing
permit is an error and not the `NotReady` the semaphore's documentation asks for. -/
namespace Roboflow.Batch
open Library Merge

/-- The steps of a `try_claim_merge` that holds its permit, no `TikvClient` call
of which fails. -/
def ClusterAction.continuesMerge : ClusterAction → Bool
  | .claimMerge .. => false
  | action => action.isMerge && action.isSerial

/-- `try_claim_merge` after it took its permit. No step is left once it has answered. -/
def merging (config : ClusterConfig) : Machine Cluster ClusterAction ClusterOut :=
  (cluster config).under fun _ action => action.continuesMerge

theorem continuing (action : ClusterAction) : action.continuesMerge =
    match action with
    | .put task | .indexPut task | .indexDelete task | .claimGet task _ | .verify task
    | .prepare task .. | .rollback task | .saveMerge task | .execute task _ | .completeGet task _
    | .failGet task _ | .closeGet task _ | .closePut task => decide (task = 0)
    | _ => false := by
  cases action <;> simp [ClusterAction.continuesMerge, ClusterAction.isMerge, ClusterAction.isSerial]

/-- The call answers `out` and leaves `s'`. -/
def Attempt (config : ClusterConfig) (claim : MergeClaim) (s : Cluster) (out : ClusterOut)
    (s' : Cluster) : Prop :=
  ∃ begun first history, clusterStep config s (.claimMerge 0 claim) = some (begun, first) ∧
    Run (merging config) begun history s' ∧ s'.tasks 0 = .idle ∧
    (history.head?.map (·.out)).getD first = out

/-- What `try_claim_merge` returns. -/
def ClusterOut.answer : ClusterOut → Option (Except String MergeResult)
  | .noPermit => some (.error "No merge permits available")
  | .merged _ result => some (.ok result)
  | _ => none

/-- How the finalizer's loop marks the batch: not at all, complete, or failed with an
error. -/
def finalizerMark : Except String MergeResult → Option (Option String)
  | .ok (.success _ _) => some none
  | .ok .notFound | .ok .notClaimed | .ok .notReady => none
  | .ok (.failed error) => some (some ("Finalization failed: " ++ "Merge failed: " ++ error))
  | .error error => some (some ("Finalization failed: " ++ error))

/-- The call ended without running the merge. -/
def ClusterOut.unmerged : ClusterOut → Bool
  | .noPermit | .merged _ .notFound | .merged _ .notClaimed | .merged _ .notReady => true
  | _ => false

/-- The stored batches, their index keys and the units. -/
structure Unchanged (s s' : Cluster) : Prop where
  statuses : s'.statuses = s.statuses
  index : s'.index = s.index
  units : s'.work.units = s.work.units

/-- An attempt that does not merge changes nothing, and one without a permit is not ready. -/
structure LeavesNoTrace (config : ClusterConfig) (claim : MergeClaim) (s : Cluster) : Prop where
  unchanged : ∀ out s', Attempt config claim s out s' → out.unmerged = true → Unchanged s s'
  backpressure : ∀ out s', Attempt config claim s out s' → s.permits claim.coordinator = 0 →
    out.answer = some (.ok .notReady) ∧ out.answer.bind finalizerMark = none

/-- The stored merge state lets a merge of this many workers begin: they have all
staged and nobody has begun, or there is one worker and nothing was staged. -/
def mergeable (stored : Option MergeState) (expectedWorkers : Nat) : Bool :=
  match stored with
  | some state =>
    (expectedWorkers ≤ state.completedWorkers && state.status = .pending) ||
      (state.completedWorkers = 0 && expectedWorkers = 1)
  | none => expectedWorkers ≤ 1

/-- A merge of this batch would be claimed. -/
def claimable (s : Cluster) (batchId : String) : Bool :=
  (s.statuses.get batchId).any fun status => status.phase = .running && status.isComplete

/-! ### What is left of a call that has put `Merging` -/

theorem ensureMergeReady_isSome (state : MergeState) (expectedWorkers : Nat) (outputPath : String)
    (now : Time) :
    (ensureMergeReady state expectedWorkers outputPath now).isSome =
      (state.isReady || (decide (state.completedWorkers = 0) && decide (expectedWorkers = 1))) := by
  unfold ensureMergeReady
  by_cases ready : state.isReady = true
  · simp [ready]
  · by_cases single : state.completedWorkers = 0 ∧ expectedWorkers = 1
    · simp [ready, single]
    · simp only [ready, single]
      simpa [not_and] using single

/-- The state is found ready as the stored one says. -/
theorem prepared_isSome (stored : Option MergeState) (claim : MergeClaim) (now : Time) :
    (ensureMergeReady (getOrCreate stored claim.batchId claim.expectedWorkers claim.outputPath now)
      claim.expectedWorkers claim.outputPath now).isSome =
      mergeable stored claim.expectedWorkers := by
  rw [ensureMergeReady_isSome]
  cases stored with
  | some state => rfl
  | none =>
    simp only [getOrCreate, mergeable, MergeState.isReady, MergeState.new]
    rw [Bool.eq_iff_iff]
    simp
    omega

/-- The merge has run, or was refused with a failure. -/
def MergeResult.ran : MergeResult → Bool
  | .success .. | .failed _ => true
  | _ => false

/-- The call will answer success or failure. -/
def BatchCall.Underway (statuses : Kv String BatchStatus) (mergeStates : Kv String MergeState) :
    BatchCall → Prop
  | .writing _ batchId _ status next => next.Underway (statuses.put batchId status) mergeStates
  | .indexing _ _ _ next | .unindexing _ _ next => next.Underway statuses mergeStates
  | .verifying claim =>
    (statuses.get claim.batchId).isSome ∧
      mergeable (mergeStates.get claim.batchId) claim.expectedWorkers = true
  | .preparing claim => mergeable (mergeStates.get claim.batchId) claim.expectedWorkers = true
  | .starting _ _ | .executing _ _ | .completing _ _ _ | .failing _ _ => True
  | .closing _ result | .closingPut _ _ result => MergeResult.ran result = true
  | _ => False

theorem indexed_underway {statuses : Kv String BatchStatus} {mergeStates : Kv String MergeState} :
    (indexed named old target next).Underway statuses mergeStates ↔
      next.Underway statuses mergeStates := by
  unfold indexed
  split <;> rfl

variable {config : ClusterConfig} {s s' : Cluster} {claim : MergeClaim}

@[simp] theorem endMerge_self : (s.endMerge config task claim).tasks task = .idle := by
  simp [Cluster.endMerge]

/-- The task is moved to a call that is under way. -/
theorem underway_setCall (underway : call.Underway s.statuses s.mergeStates) :
    ((s.setCall 0 call).tasks 0).Underway (s.setCall 0 call).statuses
      (s.setCall 0 call).mergeStates := by
  rw [Cluster.setCall_self]
  exact underway

theorem merging_step : (merging config).step s action = some (s', out) ↔
    action.continuesMerge = true ∧ clusterStep config s action = some (s', out) :=
  Machine.under_step _ _

theorem unmerged_of_ran (ran : MergeResult.ran result = true) :
    (ClusterOut.merged batchId result).unmerged = false := by
  cases result <;> first | rfl | cases ran

/-- A call that will answer success or failure goes on, or answers so. -/
theorem underway_step (underway : (s.tasks 0).Underway s.statuses s.mergeStates)
    (moved : (merging config).step s action = some (s', out)) :
    (s'.tasks 0).Underway s'.statuses s'.mergeStates ∨
      (s'.tasks 0 = .idle ∧ out.unmerged = false) := by
  obtain ⟨continues, moved⟩ := merging_step.mp moved
  cases action with
  | put task =>
    obtain rfl : task = 0 := by simpa [continuing] using continues
    simp only [clusterStep] at moved
    split at moved
    · rename_i writing
      cases moved
      rw [writing] at underway
      exact .inl (underway_setCall underway)
    · cases moved
  | indexPut task =>
    obtain rfl : task = 0 := by simpa [continuing] using continues
    simp only [clusterStep] at moved
    split at moved
    · rename_i indexing
      cases moved
      rw [indexing] at underway
      exact .inl (underway_setCall underway)
    · cases moved
  | indexDelete task =>
    obtain rfl : task = 0 := by simpa [continuing] using continues
    simp only [clusterStep] at moved
    split at moved
    · rename_i unindexing
      cases moved
      rw [unindexing] at underway
      exact .inl (underway_setCall underway)
    · cases moved
  | claimGet task now =>
    obtain rfl : task = 0 := by simpa [continuing] using continues
    simp only [clusterStep] at moved
    split at moved
    · rename_i claiming
      rw [claiming] at underway
      cases underway
    · cases moved
  | verify task =>
    obtain rfl : task = 0 := by simpa [continuing] using continues
    simp only [clusterStep] at moved
    split at moved
    · rename_i verifying
      rw [verifying] at underway
      rw [if_pos underway.1] at moved
      cases moved
      exact .inl (underway_setCall underway.2)
    · cases moved
  | prepare task worker now =>
    obtain rfl : task = 0 := by simpa [continuing] using continues
    simp only [clusterStep] at moved
    split at moved
    · rename_i claim preparing
      rw [preparing] at underway
      have ready := (prepared_isSome (s.mergeStates.get claim.batchId) claim now).trans underway
      split at moved
      · rename_i unready
        rw [unready] at ready
        cases ready
      · split at moved
        · cases moved
          exact .inl (underway_setCall trivial)
        · cases moved
          exact .inl (underway_setCall trivial)
    · cases moved
  | rollback task =>
    obtain rfl : task = 0 := by simpa [continuing] using continues
    simp only [clusterStep] at moved
    split at moved
    · rename_i rollingBack
      rw [rollingBack] at underway
      cases underway
    · cases moved
  | saveMerge task =>
    obtain rfl : task = 0 := by simpa [continuing] using continues
    simp only [clusterStep] at moved
    split at moved
    · cases moved
      exact .inl (underway_setCall trivial)
    · cases moved
  | execute task result =>
    obtain rfl : task = 0 := by simpa [continuing] using continues
    simp only [clusterStep] at moved
    split at moved
    · split at moved
      · cases moved
        exact .inl (underway_setCall trivial)
      · cases moved
        exact .inl (underway_setCall trivial)
    · cases moved
  | completeGet task now =>
    obtain rfl : task = 0 := by simpa [continuing] using continues
    simp only [clusterStep] at moved
    split at moved
    · split at moved
      · cases moved
        exact .inr ⟨endMerge_self, rfl⟩
      · cases moved
        exact .inl (underway_setCall rfl)
    · cases moved
  | failGet task now =>
    obtain rfl : task = 0 := by simpa [continuing] using continues
    simp only [clusterStep] at moved
    split at moved
    · split at moved
      · cases moved
        exact .inr ⟨endMerge_self, rfl⟩
      · cases moved
        exact .inl (underway_setCall (indexed_underway.mpr rfl))
    · cases moved
  | closeGet task now =>
    obtain rfl : task = 0 := by simpa [continuing] using continues
    simp only [clusterStep] at moved
    split at moved
    · rename_i closing
      rw [closing] at underway
      split at moved
      · cases moved
        exact .inr ⟨endMerge_self, unmerged_of_ran underway⟩
      · cases moved
        exact .inl (underway_setCall underway)
    · cases moved
  | closePut task =>
    obtain rfl : task = 0 := by simpa [continuing] using continues
    simp only [clusterStep] at moved
    split at moved
    · rename_i closingPut
      rw [closingPut] at underway
      cases moved
      exact .inr ⟨endMerge_self, unmerged_of_ran underway⟩
    · cases moved
  | _ => simp [continuing] at continues

/-- A call that has answered takes no further step. -/
theorem merging_idle (idle : s.tasks 0 = .idle) : (merging config).step s action ≠ some (s', out) := by
  intro moved
  obtain ⟨continues, moved⟩ := merging_step.mp moved
  cases action <;> simp only [continuing, decide_eq_true_eq, Bool.false_eq_true] at continues
  all_goals
    subst continues
    simp [clusterStep, idle] at moved

/-- A call that is about to read the status answers without a change, or goes on to
merge if the merge state allows it. -/
theorem claiming_step (claiming : s.tasks 0 = .claiming claim)
    (able : claimable s claim.batchId = true →
      mergeable (s.mergeStates.get claim.batchId) claim.expectedWorkers = true)
    (moved : (merging config).step s action = some (s', out)) :
    (s'.tasks 0).Underway s'.statuses s'.mergeStates ∨ (s'.tasks 0 = .idle ∧ Unchanged s s') := by
  obtain ⟨continues, moved⟩ := merging_step.mp moved
  cases action with
  | claimGet task now =>
    obtain rfl : task = 0 := by simpa [continuing] using continues
    simp only [clusterStep, claiming] at moved
    split at moved
    · cases moved
      exact .inr ⟨endMerge_self, ⟨rfl, rfl, rfl⟩⟩
    · rename_i status found
      split at moved
      · cases moved
        exact .inr ⟨endMerge_self, ⟨rfl, rfl, rfl⟩⟩
      · rename_i running
        split at moved
        · cases moved
          exact .inr ⟨endMerge_self, ⟨rfl, rfl, rfl⟩⟩
        · rename_i complete
          cases moved
          have claimed : claimable s claim.batchId = true := by
            simp only [claimable, found, Option.any_some, Bool.and_eq_true, decide_eq_true_eq]
            exact ⟨not_not.mp running, by simpa using complete⟩
          exact .inl (underway_setCall ⟨by rw [Kv.get_put_self]; rfl, able claimed⟩)
  | _ =>
    simp only [continuing, decide_eq_true_eq, Bool.false_eq_true] at continues
    all_goals
      subst continues
      simp [clusterStep, claiming] at moved

/-- A batch that is claimed with a merge state that does not let it start loses its
status. -/
theorem rolls_back (stored : s.statuses.get claim.batchId = some status)
    (running : status.phase = .running) (complete : status.isComplete = true)
    (unable : mergeable (s.mergeStates.get claim.batchId) claim.expectedWorkers = false) :
    ∃ history s', Run (merging config) (s.beginMerge 0 claim) history s' ∧
      (history.head?.map (·.out), (s'.tasks 0).isIdle, s'.statuses.get claim.batchId) =
        (some (.merged claim.batchId .notReady), true, none) := by
  have unready : ensureMergeReady (getOrCreate (s.mergeStates.get claim.batchId) claim.batchId
      claim.expectedWorkers claim.outputPath 0) claim.expectedWorkers claim.outputPath 0 = none := by
    rw [← Option.not_isSome_iff_eq_none, prepared_isSome, unable]
    simp
  refine Run.of_observation (merging config) (s.beginMerge 0 claim)
    [.claimGet 0 0, .put 0, .indexPut 0, .indexDelete 0, .verify 0, .prepare 0 "merge" 0, .rollback 0]
    (fun reached => (reached.1.head?.map (·.out), (reached.2.tasks 0).isIdle,
      reached.2.statuses.get claim.batchId)) _ ?_
  simp [Machine.replay, merging, Machine.under, continuing, cluster, clusterStep, Cluster.beginMerge,
    Cluster.setCall, Cluster.endMerge, stored, running, complete, unready, Kv.get_delete,
    BatchCall.isIdle]

/-- Where a call stands that has its permit: it has read nothing yet, it will answer
success or failure, or it has answered and any other answer left no change. -/
theorem attempt_invariant
    (able : claimable s claim.batchId = true →
      mergeable (s.mergeStates.get claim.batchId) claim.expectedWorkers = true)
    (run : Run (merging config) (s.beginMerge 0 claim) history s') :
    (s' = s.beginMerge 0 claim) ∨ (s'.tasks 0).Underway s'.statuses s'.mergeStates ∨
      (s'.tasks 0 = .idle ∧ ∃ e older, history = e :: older ∧
        (e.out.unmerged = true → Unchanged s s')) := by
  induction run with
  | start => exact .inl rfl
  | @next history t action t' out before moved ih =>
    rcases ih with rfl | underway | ⟨idle, _⟩
    · have claiming : (s.beginMerge 0 claim).tasks 0 = .claiming claim := by
        simp [Cluster.beginMerge]
      rcases claiming_step claiming able moved with underway | ⟨idle, unchanged⟩
      · exact .inr (.inl underway)
      · exact .inr (.inr ⟨idle, _, _, rfl, fun _ =>
          ⟨unchanged.statuses, unchanged.index, unchanged.units⟩⟩)
    · rcases underway_step underway moved with underway | ⟨idle, ran⟩
      · exact .inr (.inl underway)
      · refine .inr (.inr ⟨idle, _, _, rfl, fun unmerged => ?_⟩)
        rw [ran] at unmerged
        cases unmerged
    · exact absurd moved (merging_idle idle)

/-- Without a permit the attempt is an error, on which the finalizer fails the batch. -/
theorem noPermit_leaves_trace (config : ClusterConfig) (idle : s.tasks 0 = .idle)
    (exhausted : s.permits claim.coordinator = 0) : ¬ LeavesNoTrace config claim s := by
  intro traceless
  have attempt : Attempt config claim s .noPermit s :=
    ⟨s, .noPermit, [], by simp [clusterStep, idle, exhausted], .start, idle, rfl⟩
  have answered := traceless.backpressure _ _ attempt exhausted
  cases answered.1

/-- A rolled back attempt leaves the batch without a status. -/
theorem rollback_leaves_trace (config : ClusterConfig) (idle : s.tasks 0 = .idle)
    (permitted : 0 < s.permits claim.coordinator) (claimed : claimable s claim.batchId = true)
    (unable : mergeable (s.mergeStates.get claim.batchId) claim.expectedWorkers = false) :
    ¬ LeavesNoTrace config claim s := by
  intro traceless
  obtain ⟨status, stored, ready⟩ := (Option.any_eq_true _ _).mp claimed
  simp only [Bool.and_eq_true, decide_eq_true_eq] at ready
  obtain ⟨history, s', run, seen⟩ := rolls_back stored ready.1 ready.2 unable
  simp only [Prod.mk.injEq] at seen
  obtain ⟨answered, ended, lost⟩ := seen
  have attempt : Attempt config claim s (.merged claim.batchId .notReady) s' :=
    ⟨s.beginMerge 0 claim, .working, history, by simp only [clusterStep, idle, if_pos permitted],
      run, eq_idle_of_isIdle ended, by rw [answered, Option.getD_some]⟩
  have unchanged := traceless.unchanged _ _ attempt rfl
  rw [unchanged.statuses, stored] at lost
  cases lost

/-- An attempt leaves no trace exactly when there is a permit for it and the merge
of a claimable batch can start. -/
theorem leaves_no_trace_iff (config : ClusterConfig) (claim : MergeClaim)
    (idle : s.tasks 0 = .idle) :
    LeavesNoTrace config claim s ↔ 0 < s.permits claim.coordinator ∧
      (claimable s claim.batchId = true →
        mergeable (s.mergeStates.get claim.batchId) claim.expectedWorkers = true) := by
  constructor
  · intro traceless
    have permitted : 0 < s.permits claim.coordinator := by
      by_contra exhausted
      exact noPermit_leaves_trace config idle (Nat.eq_zero_of_not_pos exhausted) traceless
    refine ⟨permitted, fun claimed => ?_⟩
    by_contra unable
    exact rollback_leaves_trace config idle permitted claimed (by simpa using unable) traceless
  · rintro ⟨permitted, able⟩
    refine ⟨?_, fun _ _ _ exhausted => absurd exhausted permitted.ne'⟩
    rintro out s' ⟨begun, first, history, began, run, ended, rfl⟩ unmerged
    simp only [clusterStep, idle, if_pos permitted] at began
    cases began
    rcases attempt_invariant able run with rfl | underway | ⟨_, e, older, rfl, unchanged⟩
    · simp [Cluster.beginMerge] at ended
    · rw [ended] at underway
      cases underway
    · exact unchanged unmerged

/-- The finalizer's attempt on a batch that nobody has merged yet. -/
theorem ready_batch_leaves_no_trace :
    LeavesNoTrace ⟨⟨10, 30⟩, 3600, 1⟩ ⟨0, "jobs:b", 1, "s3://out/"⟩ readyBatch := by
  refine (leaves_no_trace_iff _ ⟨0, "jobs:b", 1, "s3://out/"⟩ rfl).mpr ⟨?_, ?_⟩
  · decide
  · intro _
    decide

/-- A `Running` batch whose earlier merge failed, as its reconciled status and its
merge state are stored. -/
def mergeFailedBefore : Cluster :=
  { readyBatch with
    mergeStates := Kv.empty.put "jobs:b"
      (((MergeState.new "jobs:b" 1 "s3://out/" 0).addWorker "direct" "s3://out/" 0 0).close
        (.failed "Merge execution failed: no parquet") 0) }

/-- The finalizer's next attempt on that batch deletes its status; and any attempt
without a permit is an error. -/
theorem attempt_leaves_trace :
    ¬ LeavesNoTrace ⟨⟨10, 30⟩, 3600, 1⟩ ⟨0, "jobs:b", 1, "s3://out/"⟩ mergeFailedBefore ∧
      ¬ LeavesNoTrace ⟨⟨10, 30⟩, 3600, 1⟩ ⟨0, "jobs:b", 1, "s3://out/"⟩
        { readyBatch with permits := fun _ => 0 } := by
  constructor
  · exact rollback_leaves_trace _ rfl (by decide) (by decide) (by decide)
  · exact noPermit_leaves_trace _ rfl rfl

end Roboflow.Batch
