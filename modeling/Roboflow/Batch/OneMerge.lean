import Roboflow.Batch.ClusterMoves

/-! How often a batch is merged when any number of finalizers call
`try_claim_merge` for it. The claim reads the status, puts `Merging` and reads the
status back, and the read back only asks whether there is one. So two callers can
both pass; one merge is left when each put of `Merging` still finds `Running`. -/
namespace Roboflow.Batch
open Library Merge

/-- Only `try_claim_merge` runs, and each put of `Merging` finds the batch `Running`. -/
def ClaimsRunning (s : Cluster) (action : ClusterAction) : Bool :=
  action.isMerge && match action with
    | .put task =>
      match s.tasks task with
      | .writing .claimMerge batchId _ _ _ =>
        (s.statuses.get batchId).any fun status => status.phase = .running
      | _ => true
    | _ => true

/-- The step enters `execute_merge` for this batch. -/
def ClusterOut.isExecution (batchId : String) : ClusterOut → Bool
  | .executes executed => executed = batchId
  | _ => false

/-- The step answers `Success` for this batch. -/
def ClusterOut.isSuccess (batchId : String) : ClusterOut → Bool
  | .merged answered (.success _ _) => answered = batchId
  | _ => false

def executions (batchId : String) (history : History Cluster ClusterAction ClusterOut) : Nat :=
  history.countP fun e => e.out.isExecution batchId

def successes (batchId : String) (history : History Cluster ClusterAction ClusterOut) : Nat :=
  history.countP fun e => e.out.isSuccess batchId

/-! ### What a call can still do -/

/-- The call has put `Merging` for this batch and not yet entered the merge. -/
def BatchCall.mayExecute (batchId : String) : BatchCall → Bool
  | .writing .claimMerge _ _ _ _ => false
  | .writing _ _ _ _ next | .indexing _ _ _ next | .unindexing _ _ next => next.mayExecute batchId
  | .verifying claim | .preparing claim | .starting claim _ => claim.batchId = batchId
  | _ => false

theorem merges_of_mayExecute {call : BatchCall} (ready : call.mayExecute batchId = true) :
    call.merges batchId = true := by
  induction call with
  | writing writer _ _ _ next ih => cases writer <;> simp_all [BatchCall.mayExecute, BatchCall.merges]
  | _ => simp_all [BatchCall.mayExecute, BatchCall.merges]

@[simp] theorem indexed_merges :
    (indexed named old target next).merges batchId = next.merges batchId := by
  unfold indexed
  split <;> rfl

@[simp] theorem indexed_mayExecute :
    (indexed named old target next).mayExecute batchId = next.mayExecute batchId := by
  unfold indexed
  split <;> rfl

/-- A move takes up no merge; entering or answering one uses it up. -/
structure Narrows (batchId : String) (call next : BatchCall) (out : ClusterOut) : Prop where
  merges : next.merges batchId = true → call.merges batchId = true
  mayExecute : next.mayExecute batchId = true → call.mayExecute batchId = true
  executes : out.isExecution batchId = true →
    call.mayExecute batchId = true ∧ next.mayExecute batchId = false
  succeeds : out.isSuccess batchId = true →
    call.merges batchId = true ∧ next.merges batchId = false

theorem narrows_of_moves (moved : Moves config s action call next out) (batchId : String) :
    Narrows batchId call next out := by
  cases moved with
  | ends unexecuted succeeded =>
    refine ⟨by simp [BatchCall.merges], by simp [BatchCall.mayExecute], ?_, ?_⟩
    · intro executes
      cases out <;> simp_all [ClusterOut.isExecution]
    · intro succeeds
      refine ⟨?_, rfl⟩
      unfold ClusterOut.isSuccess at succeeds
      split at succeeds
      · exact succeeded _ _ _ (by rw [of_decide_eq_true succeeds])
      · cases succeeds
  | _ =>
    constructor <;>
      simp [BatchCall.merges, BatchCall.mayExecute, ClusterOut.isExecution, ClusterOut.isSuccess,
        saving]

/-- A call of `try_claim_merge` never writes `Running`, and claims the batch it puts. -/
def BatchCall.Claiming : BatchCall → Prop
  | .writing writer batchId _ status next =>
    status.phase ≠ .running ∧
      (writer = .claimMerge → ∀ other, next.merges other = true → other = batchId) ∧ next.Claiming
  | .indexing _ _ _ next | .unindexing _ _ next => next.Claiming
  | .scanning _ _ | .discovering _ => False
  | _ => True

theorem claiming_of_moves (merge : action.isMerge = true) (claiming : call.Claiming)
    (moved : Moves config s action call next out) : next.Claiming := by
  cases moved with
  | reconciles | scans | cancels | discovers | resumes | marksComplete | marksFailed => cases merge
  | recounts | skips | saves | concludes => cases claiming
  | indexes => exact claiming
  | unindexes => exact claiming
  | claims =>
    refine ⟨by simp, fun _ other merges => ?_, trivial⟩
    simpa [BatchCall.merges, eq_comm] using merges
  | completes => exact ⟨by simp, by simp, trivial⟩
  | fails =>
    refine ⟨by simp, by simp, ?_⟩
    unfold indexed
    split <;> trivial
  | _ => trivial

/-! ### Steps and runs -/

/-- At most one call has put `Merging`, and nothing was entered or answered before
what that call can still do. A batch that is still `Running` has not been claimed. -/
structure ClaimedOnce (batchId : String) (history : History Cluster ClusterAction ClusterOut)
    (s : Cluster) : Prop where
  claiming : ∀ task, (s.tasks task).Claiming
  unclaimed : (s.statuses.get batchId).any (fun status => status.phase = .running) = true →
    (∀ task, (s.tasks task).merges batchId = false) ∧ executions batchId history = 0 ∧
      successes batchId history = 0
  one : ∀ task other, (s.tasks task).merges batchId = true →
    (s.tasks other).merges batchId = true → task = other
  unexecuted : ∀ task, (s.tasks task).mayExecute batchId = true → executions batchId history = 0
  unanswered : ∀ task, (s.tasks task).merges batchId = true → successes batchId history = 0
  executions_le : executions batchId history ≤ 1
  successes_le : successes batchId history ≤ 1

namespace ClaimedOnce

/-- A step whose task takes up no merge, and that writes no `Running`. -/
theorem narrowed (once : ClaimedOnce batchId history s) (task : Nat)
    (narrows : Narrows batchId (s.tasks task) next out)
    (tasks : s'.tasks = Function.update s.tasks task next)
    (claiming : ∀ task, (s'.tasks task).Claiming)
    (running : (s'.statuses.get batchId).any (fun status => status.phase = .running) = true →
      (s.statuses.get batchId).any (fun status => status.phase = .running) = true) :
    ClaimedOnce batchId (⟨s, action, out, s'⟩ :: history) s' := by
  have here : s'.tasks task = next := by simp [tasks]
  have elsewhere : ∀ other, other ≠ task → s'.tasks other = s.tasks other := by
    intro other different
    simp [tasks, different]
  have merges : ∀ other, (s'.tasks other).merges batchId = true →
      (s.tasks other).merges batchId = true := by
    intro other held
    by_cases same : other = task
    · subst same
      exact narrows.merges (by rwa [here] at held)
    · rwa [elsewhere other same] at held
  have mayExecute : ∀ other, (s'.tasks other).mayExecute batchId = true →
      (s.tasks other).mayExecute batchId = true := by
    intro other ready
    by_cases same : other = task
    · subst same
      exact narrows.mayExecute (by rwa [here] at ready)
    · rwa [elsewhere other same] at ready
  have executed : executions batchId (⟨s, action, out, s'⟩ :: history) =
      executions batchId history + if out.isExecution batchId then 1 else 0 :=
    List.countP_cons
  have succeeded : successes batchId (⟨s, action, out, s'⟩ :: history) =
      successes batchId history + if out.isSuccess batchId then 1 else 0 :=
    List.countP_cons
  refine ⟨claiming, ?_, ?_, ?_, ?_, ?_, ?_⟩
  · intro still
    obtain ⟨none, noExecution, noSuccess⟩ := once.unclaimed (running still)
    have notExecution : ¬ out.isExecution batchId = true := by
      intro executes
      simpa [none task] using merges_of_mayExecute (narrows.executes executes).1
    have notSuccess : ¬ out.isSuccess batchId = true := by
      intro succeeds
      simpa [none task] using (narrows.succeeds succeeds).1
    refine ⟨fun other => ?_, by simp [executed, noExecution, notExecution],
      by simp [succeeded, noSuccess, notSuccess]⟩
    exact Bool.eq_false_iff.mpr fun held => by simpa [none other] using merges other held
  · intro first second held also
    exact once.one first second (merges first held) (merges second also)
  · intro other ready
    have before := once.unexecuted other (mayExecute other ready)
    have notExecution : ¬ out.isExecution batchId = true := by
      intro executes
      obtain ⟨entered, left⟩ := narrows.executes executes
      have same : other = task := once.one other task
        (merges_of_mayExecute (mayExecute other ready)) (merges_of_mayExecute entered)
      rw [same, here, left] at ready
      cases ready
    simp [executed, before, notExecution]
  · intro other held
    have before := once.unanswered other (merges other held)
    have notSuccess : ¬ out.isSuccess batchId = true := by
      intro succeeds
      obtain ⟨answered, left⟩ := narrows.succeeds succeeds
      have same : other = task := once.one other task (merges other held) answered
      rw [same, here, left] at held
      cases held
    simp [succeeded, before, notSuccess]
  · rw [executed]
    split
    · rename_i executes
      rw [once.unexecuted task (narrows.executes executes).1]
    · exact once.executions_le
  · rw [succeeded]
    split
    · rename_i succeeds
      rw [once.unanswered task (narrows.succeeds succeeds).1]
    · exact once.successes_le

/-- The put that claims: the batch was `Running`, so nobody had claimed it. -/
theorem claimed (once : ClaimedOnce batchId history s) (task : Nat)
    (was : (s.statuses.get batchId).any (fun status => status.phase = .running) = true)
    (now : (s'.statuses.get batchId).any (fun status => status.phase = .running) = false)
    (tasks : s'.tasks = Function.update s.tasks task next)
    (claiming : ∀ task, (s'.tasks task).Claiming) :
    ClaimedOnce batchId (⟨s, action, .working, s'⟩ :: history) s' := by
  obtain ⟨none, noExecution, noSuccess⟩ := once.unclaimed was
  have executed : executions batchId (⟨s, action, .working, s'⟩ :: history) = 0 := noExecution
  have succeeded : successes batchId (⟨s, action, .working, s'⟩ :: history) = 0 := noSuccess
  have only : ∀ other, (s'.tasks other).merges batchId = true → other = task := by
    intro other held
    by_contra different
    rw [tasks, Function.update_of_ne different, none other] at held
    cases held
  refine ⟨claiming, fun still => ?_, fun first second held also => ?_, fun _ _ => executed,
    fun _ _ => succeeded, by omega, by omega⟩
  · rw [now] at still
    cases still
  · rw [only first held, only second also]

/-- A step nobody's call moves in changes nothing. -/
theorem rested (once : ClaimedOnce batchId history s)
    (unexecuted : out.isExecution batchId = false) (unanswered : out.isSuccess batchId = false) :
    ClaimedOnce batchId (⟨s, action, out, s⟩ :: history) s := by
  have executed : executions batchId (⟨s, action, out, s⟩ :: history) =
      executions batchId history := by
    simp [executions, unexecuted]
  have succeeded : successes batchId (⟨s, action, out, s⟩ :: history) =
      successes batchId history := by
    simp [successes, unanswered]
  exact ⟨once.claiming, by rw [executed, succeeded]; exact once.unclaimed, once.one,
    by rw [executed]; exact once.unexecuted, by rw [succeeded]; exact once.unanswered,
    by rw [executed]; exact once.executions_le, by rw [succeeded]; exact once.successes_le⟩

/-- A put other than the claim of this batch takes up no merge of it. -/
theorem narrows_of_put (unclaiming : writer = .claimMerge → next.merges batchId = false) :
    Narrows batchId (.writing writer written seen status next) next .working := by
  by_cases claims : writer = .claimMerge
  · have none := unclaiming claims
    refine ⟨by simp [none], fun ready => ?_, by simp [ClusterOut.isExecution],
      by simp [ClusterOut.isSuccess]⟩
    simpa [none] using merges_of_mayExecute ready
  · cases writer <;> first | exact absurd rfl claims | exact ⟨id, id, by simp [ClusterOut.isExecution],
      by simp [ClusterOut.isSuccess]⟩

/-- Every allowed step keeps the batch claimed once. -/
theorem step (once : ClaimedOnce batchId history s) (allowed : ClaimsRunning s action = true)
    (moved : ClusterMove config s action out s') :
    ClaimedOnce batchId (⟨s, action, out, s'⟩ :: history) s' := by
  obtain ⟨merge, finds⟩ := (Bool.and_eq_true _ _).mp allowed
  have claiming : ∀ task, (s'.tasks task).Claiming :=
    moved.calls trivial (fun _ _ _ _ _ held => held.2.2)
      (fun _ _ held step => claiming_of_moves merge held step) once.claiming
  cases moved with
  | works => cases merge
  | rests unexecuted unmerged =>
    apply once.rested
    · cases out <;> simp_all [ClusterOut.isExecution]
    · cases out <;> simp_all [ClusterOut.isSuccess]
  | moves task step statuses _ tasks =>
    exact once.narrowed task (narrows_of_moves step batchId) tasks claiming (by rw [statuses]; exact id)
  | @puts task writer written seen status next call =>
    have copy := once.claiming task
    rw [call] at copy
    obtain ⟨notRunning, claims, _⟩ := copy
    by_cases here : writer = .claimMerge ∧ written = batchId
    · obtain ⟨rfl, rfl⟩ := here
      refine once.claimed task ?_ ?_ rfl claiming
      · simpa [call] using finds
      · simp [Cluster.setCall, notRunning]
    · refine once.narrowed task ?_ rfl claiming ?_
      · rw [call]
        refine narrows_of_put fun isClaim => Bool.eq_false_iff.mpr fun held => ?_
        exact here ⟨isClaim, (claims isClaim batchId held).symm⟩
      · intro running
        simp only [Cluster.setCall, Kv.get_put] at running
        split at running
        · simp [notRunning] at running
        · exact running
  | @deletes task claim call =>
    refine once.narrowed task ?_ rfl claiming ?_
    · rw [call]
      exact ⟨by simp [BatchCall.merges], by simp [BatchCall.mayExecute],
        by simp [ClusterOut.isExecution], by simp [ClusterOut.isSuccess]⟩
    · intro running
      simp only [Cluster.endMerge, Cluster.setCall, Kv.get_delete] at running
      split at running
      · cases running
      · exact running

end ClaimedOnce

/-- Over every schedule of `try_claim_merge` calls in which each put of `Merging`
finds `Running`, a batch enters `execute_merge` at most once, and at most one call
answers success. -/
theorem one_merge {config : ClusterConfig} (idle : ∀ task, start.tasks task = .idle)
    (run : Run ((cluster config).under (ClaimsRunning · ·)) start history s) (batchId : String) :
    executions batchId history ≤ 1 ∧ successes batchId history ≤ 1 := by
  have once : ClaimedOnce batchId history s := by
    apply run.history_invariant
    · exact ⟨by simp [idle, BatchCall.Claiming],
        fun _ => ⟨by simp [idle, BatchCall.merges], rfl, rfl⟩, by simp [idle, BatchCall.merges],
        fun _ _ => rfl, fun _ _ => rfl, Nat.zero_le 1, Nat.zero_le 1⟩
    · intro history s action s' out _ once moved
      obtain ⟨allowed, moved⟩ := (Machine.under_step _ _).mp moved
      exact once.step allowed (clusterMove_of_step moved)
  exact ⟨once.executions_le, once.successes_le⟩

/-- One stored batch, `Running` and complete. -/
def readyBatch : Cluster :=
  { runningBatch [("u", .complete)] with
    statuses := Kv.empty.put "jobs:b"
      { BatchStatus.new 0 with phase := .running, workUnitsTotal := 1, workUnitsCompleted := 1 } }

/-- Two finalizers, the second reading after the first has put: one merge. -/
theorem one_merge_of_two_finalizers : ∃ history s,
    Run ((cluster ⟨⟨10, 30⟩, 3600, 1⟩).under (ClaimsRunning · ·)) readyBatch history s ∧
    (executions "jobs:b" history ≤ 1 ∧ successes "jobs:b" history ≤ 1) ∧
    (executions "jobs:b" history, successes "jobs:b" history) = (1, 1) := by
  obtain ⟨history, s, run, seen⟩ := Run.of_observation
    ((cluster ⟨⟨10, 30⟩, 3600, 1⟩).under (ClaimsRunning · ·)) readyBatch
    [.claimMerge 0 ⟨0, "jobs:b", 1, "s3://out/"⟩, .claimMerge 1 ⟨1, "jobs:b", 1, "s3://out/"⟩,
      .claimGet 0 1, .put 0, .claimGet 1 2, .indexPut 0, .indexDelete 0, .verify 0,
      .prepare 0 "merge" 3, .saveMerge 0, .execute 0 (.ok 7), .completeGet 0 4, .put 0,
      .indexPut 0, .indexDelete 0, .closeGet 0 5, .closePut 0]
    (fun reached => (executions "jobs:b" reached.1, successes "jobs:b" reached.1)) (1, 1) (by decide)
  exact ⟨history, s, run, one_merge (fun _ => rfl) run "jobs:b", seen⟩

/-- Two finalizers that both read `Running` before either puts: both pass the read
back, both find no merge state, and both enter the merge. -/
theorem two_finalizers_both_merge :
    ¬ ∀ history s, Run ((cluster ⟨⟨10, 30⟩, 3600, 1⟩).under fun _ action => action.isMerge)
        readyBatch history s →
      executions "jobs:b" history ≤ 1 ∧ successes "jobs:b" history ≤ 1 := by
  intro once
  obtain ⟨history, s, run, seen⟩ := Run.of_observation
    ((cluster ⟨⟨10, 30⟩, 3600, 1⟩).under fun _ action => action.isMerge) readyBatch
    [.claimMerge 0 ⟨0, "jobs:b", 1, "s3://out/"⟩, .claimMerge 1 ⟨1, "jobs:b", 1, "s3://out/"⟩,
      .claimGet 0 1, .claimGet 1 1, .put 0, .indexPut 0, .indexDelete 0, .verify 0, .put 1,
      .indexPut 1, .indexDelete 1, .verify 1, .prepare 0 "merge-0" 2, .prepare 1 "merge-1" 2,
      .saveMerge 0, .saveMerge 1, .execute 0 (.ok 7), .execute 1 (.ok 7),
      .completeGet 0 3, .put 0, .indexPut 0, .indexDelete 0, .closeGet 0 4, .closePut 0,
      .completeGet 1 5, .put 1, .indexPut 1, .indexDelete 1, .closeGet 1 6, .closePut 1]
    (fun reached => (executions "jobs:b" reached.1, successes "jobs:b" reached.1)) (2, 2) (by decide)
  have bound := (once history s run).1
  have twice : executions "jobs:b" history = 2 := congrArg Prod.fst seen
  omega

end Roboflow.Batch
