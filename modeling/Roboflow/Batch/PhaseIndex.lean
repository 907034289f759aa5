import Roboflow.Batch.KeyIsolation

/-! The phase index against the stored statuses, when operations run one at a
time. Every writer but one indexes the batch it put, from the phase it read to the
phase it put. `transition_to_merging` builds its two keys from the status key
instead of the batch id, and `rollback_to_running` deletes a status without its key. -/
namespace Roboflow.Batch
open Library Tikv Merge

/-- `BatchIndexKeys::phase`, after the fixed part of the index's keys. -/
def phaseKey (phase : BatchPhase) (batchId : String) : String := phase.text ++ "/" ++ batchId

/-- A batch is indexed under its stored phase only, and not at all without a status. -/
def IndexExact (index : Kv String Unit) (statuses : Kv String BatchStatus) : Prop :=
  ∀ batchId phase, (index.get (phaseKey phase batchId)).isSome ↔
    (statuses.get batchId).map (·.phase) = some phase

/-! ### Operations one at a time -/

inductive BatchOperation where
  | submit (spec : BatchSpec) (now : Time)
  | step (action : ClusterAction)

/-- A step of the one task that runs, none of whose `TikvClient` calls fails. The
workers' units are outside the index and may change meanwhile. -/
def ClusterAction.isSerial : ClusterAction → Bool
  | .work _ => true
  | .reconcile task .. | .scanUnits task _ | .cancel task .. | .scanBatch task ..
  | .scanSource task _ | .finishScan task _ | .put task | .indexPut task | .indexDelete task
  | .claimMerge task _ | .claimGet task _ | .verify task | .prepare task .. | .rollback task
  | .saveMerge task | .execute task _ | .completeGet task _ | .failGet task _ | .closeGet task _
  | .closePut task | .mark task .. => task = 0
  | .lose .. => false

/-- `submit_batch` writes status and index key in one transaction; it is only
called here for an id that is not stored. -/
def serialStep (config : ClusterConfig) (s : Cluster) :
    BatchOperation → Option (Cluster × ClusterOut)
  | .submit spec now =>
    match s.tasks 0, s.statuses.get spec.batchId with
    | .idle, none =>
      match spec.validate with
      | .error _ => some (s, .finished)
      | .ok () =>
        some ({ s with
          statuses := s.statuses.put spec.batchId (.new now)
          index := s.index.put (phaseKey .pending spec.batchId) () }, .finished)
    | _, _ => none
  | .step action => if action.isSerial then clusterStep config s action else none

def serialCluster (config : ClusterConfig) : Machine Cluster BatchOperation ClusterOut :=
  ⟨serialStep config⟩

/-- No `try_claim_merge` finds its batch `Running` and complete. -/
def NoMergeClaimed (s : Cluster) : BatchOperation → Bool
  | .step (.claimGet task _) =>
    match s.tasks task with
    | .claiming claim =>
      !(s.statuses.get claim.batchId).any fun status => status.phase = .running && status.isComplete
    | _ => true
  | _ => true

/-! ### What one operation leaves to do -/

/-- What the call still writes makes the index exact. A call that holds a status
across its reads holds the stored phase. -/
def BatchCall.Settles (index : Kv String Unit) (statuses : Kv String BatchStatus) :
    BatchCall → Prop
  | .idle | .claiming _ => IndexExact index statuses
  | .scanning spec status =>
    IndexExact index statuses ∧
      (statuses.get spec.batchId).map (·.phase) = some status.phase
  | .discovering work =>
    IndexExact index statuses ∧ work.status.phase = .discovering ∧
      (statuses.get work.spec.batchId).map (·.phase) = some .discovering
  | .writing _ batchId _ status next => next.Settles index (statuses.put batchId status)
  | .indexing id old new next =>
    next.Settles ((index.put (phaseKey new id) ()).delete (phaseKey old id)) statuses
  | .unindexing id old next => next.Settles (index.delete (phaseKey old id)) statuses
  | _ => False

theorem phaseKey_injective (same : phaseKey phase batchId = phaseKey other otherId) :
    phase = other ∧ batchId = otherId := by
  have parts := congrArg String.toList same
  simp only [phaseKey, String.toList_append, List.append_assoc] at parts
  obtain ⟨texts, rest⟩ := part_of_append (BatchPhase.text_slashFree phase)
    (BatchPhase.text_slashFree other) (by simp) (by simp) parts
  refine ⟨BatchPhase.text_injective (String.toList_injective texts), ?_⟩
  exact String.toList_injective (List.append_cancel_left rest)

theorem index_put (index : Kv String Unit) (phase added : BatchPhase) (batchId addedId : String) :
    ((index.put (phaseKey added addedId) ()).get (phaseKey phase batchId)).isSome ↔
      (phase = added ∧ batchId = addedId) ∨ (index.get (phaseKey phase batchId)).isSome := by
  rw [Kv.get_put]
  split
  · rename_i same
    simp [phaseKey_injective same]
  · rename_i different
    have other : ¬ (phase = added ∧ batchId = addedId) := by
      rintro ⟨rfl, rfl⟩
      exact different rfl
    simp [other]

theorem index_delete (index : Kv String Unit) (phase dropped : BatchPhase)
    (batchId droppedId : String) :
    ((index.delete (phaseKey dropped droppedId)).get (phaseKey phase batchId)).isSome ↔
      ¬ (phase = dropped ∧ batchId = droppedId) ∧ (index.get (phaseKey phase batchId)).isSome := by
  rw [Kv.get_delete]
  split
  · rename_i same
    simp [phaseKey_injective same]
  · rename_i different
    have other : ¬ (phase = dropped ∧ batchId = droppedId) := by
      rintro ⟨rfl, rfl⟩
      exact different rfl
    simp [other]

namespace IndexExact

variable {index : Kv String Unit} {statuses : Kv String BatchStatus}

/-- A put that keeps the phase needs no update. -/
theorem rewritten (exact : IndexExact index statuses) {status : BatchStatus}
    (stored : (statuses.get batchId).map (·.phase) = some status.phase) :
    IndexExact index (statuses.put batchId status) := by
  intro other phase
  rw [exact other phase, Kv.get_put]
  split
  · rename_i same
    rw [same, stored, Option.map_some]
  · rfl

/-- A put that changes the phase, with the update of the index from old to new. -/
theorem moved (exact : IndexExact index statuses) {status : BatchStatus}
    (stored : ∀ phase, (statuses.get batchId).map (·.phase) = some phase → phase = old)
    (changed : status.phase ≠ old) :
    IndexExact ((index.put (phaseKey status.phase batchId) ()).delete (phaseKey old batchId))
      (statuses.put batchId status) := by
  intro other phase
  rw [index_delete, index_put, exact other phase, Kv.get_put]
  split
  · rename_i same
    subst same
    constructor
    · rintro ⟨kept, new | before⟩
      · rw [Option.map_some, new.1]
      · exact absurd ⟨stored phase before, rfl⟩ kept
    · intro new
      rw [Option.map_some, Option.some.injEq] at new
      refine ⟨fun dropped => changed (new.trans dropped.1), .inl ⟨new.symm, rfl⟩⟩
  · rename_i different
    simp [different]

/-- What `saving` leaves to do. -/
theorem saving (exact : IndexExact index statuses) {status : BatchStatus}
    (stored : (statuses.get batchId).map (·.phase) = some old ∨
      statuses.get batchId = none ∧ status.phase ≠ old) :
    (saving writer batchId seen old status).Settles index statuses := by
  simp only [Batch.saving, indexed]
  split
  · rename_i same
    rcases stored with found | ⟨_, changed⟩
    · exact exact.rewritten (found.trans (congrArg some same))
    · exact absurd same.symm changed
  · rename_i changed
    refine exact.moved ?_ (Ne.symm changed)
    intro phase found
    rcases stored with held | ⟨none, _⟩
    · exact Option.some.inj (found.symm.trans held)
    · simp [none] at found

end IndexExact

/-! ### Steps and runs -/

variable {config : ClusterConfig} {s s' : Cluster}

/-- A batch read with a default has that phase or none stored. -/
theorem storedPhase_of_getD {stored : Option BatchStatus} {fallback : BatchStatus}
    (read : (stored.getD fallback).phase = current) :
    ∀ phase, stored.map (·.phase) = some phase → phase = current := by
  intro phase found
  cases stored with
  | none => cases found
  | some status => exact (Option.some.inj found).symm.trans read

/-- A pending batch that is reconciled changes its phase. -/
theorem reconcilePhase_ne_pending (pending : status.phase = .pending) :
    (reconcilePhase timeout spec status now).phase ≠ .pending := by
  rw [reconcilePhase, pending]
  rcases reconcilePending_phase spec status now with starts | fails
  · simp [starts]
  · simp [fails]

/-- The task is moved to a call that settles the index. -/
theorem settles_setCall (settled : call.Settles s.index s.statuses) :
    ((s.setCall 0 call).tasks 0).Settles (s.setCall 0 call).index (s.setCall 0 call).statuses := by
  rw [Cluster.setCall_self]
  exact settled

theorem settles_reconcile (settled : (s.tasks 0).Settles s.index s.statuses)
    (moved : clusterStep config s (.reconcile 0 spec now) = some (s', out)) :
    (s'.tasks 0).Settles s'.index s'.statuses := by
  simp only [clusterStep] at moved
  split at moved
  · rename_i idle
    rw [idle] at settled
    cases found : s.statuses.get spec.batchId with
    | none =>
      simp only [found, Option.getD_none, BatchStatus.new] at moved
      cases moved
      exact settles_setCall (IndexExact.saving settled (.inr ⟨found, reconcilePhase_ne_pending rfl⟩))
    | some status =>
      have stored : (s.statuses.get spec.batchId).map (·.phase) = some status.phase := by
        rw [found, Option.map_some]
      simp only [found, Option.getD_some] at moved
      split at moved
      · cases moved
        rwa [idle]
      · cases moved
        rwa [idle]
      · cases moved
        exact settles_setCall ⟨settled, stored⟩
      · cases moved
        exact settles_setCall ⟨settled, stored⟩
      · cases moved
        exact settles_setCall (IndexExact.saving settled (.inl stored))
  · cases moved

theorem settles_scanUnits (settled : (s.tasks 0).Settles s.index s.statuses)
    (moved : clusterStep config s (.scanUnits 0 now) = some (s', out)) :
    (s'.tasks 0).Settles s'.index s'.statuses := by
  simp only [clusterStep] at moved
  split at moved
  · rename_i scanning
    rw [scanning] at settled
    cases moved
    exact settles_setCall (IndexExact.saving settled.1 (.inl settled.2))
  · cases moved

theorem settles_cancel (settled : (s.tasks 0).Settles s.index s.statuses)
    (moved : clusterStep config s (.cancel 0 batchId now) = some (s', out)) :
    (s'.tasks 0).Settles s'.index s'.statuses := by
  simp only [clusterStep] at moved
  split at moved
  · rename_i idle
    split at moved
    · cases moved
      exact settled
    · rename_i status found
      rw [idle] at settled
      split at moved
      · cases moved
        exact settles_setCall (IndexExact.saving settled (.inl (by rw [found, Option.map_some])))
      · cases moved
        rwa [idle]
  · cases moved

theorem settles_scanBatch (settled : (s.tasks 0).Settles s.index s.statuses)
    (moved : clusterStep config s (.scanBatch 0 spec now) = some (s', out)) :
    (s'.tasks 0).Settles s'.index s'.statuses := by
  simp only [clusterStep] at moved
  split at moved
  · rename_i idle
    rw [idle] at settled
    split at moved
    · rename_i pending
      cases moved
      rw [Cluster.setCall_self]
      generalize initialized : initializeDiscovery spec _ now = status
      have phase : status.phase = .discovering := by
        rw [← initialized]
        rfl
      have indexed : IndexExact ((s.index.put (phaseKey status.phase spec.batchId) ()).delete
          (phaseKey .pending spec.batchId)) (s.statuses.put spec.batchId status) :=
        IndexExact.moved settled (storedPhase_of_getD pending) (by rw [phase]; simp)
      rw [phase] at indexed
      exact ⟨indexed, phase, by rw [Kv.get_put_self, Option.map_some, phase]⟩
    · rename_i discovering
      cases found : s.statuses.get spec.batchId with
      | none => simp [found, BatchStatus.new] at discovering
      | some status =>
        simp only [found, Option.getD_some] at discovering moved
        cases moved
        exact settles_setCall ⟨settled, discovering, by simp [found, discovering]⟩
    · cases moved
      rwa [idle]
  · cases moved

theorem settles_scanSource (settled : (s.tasks 0).Settles s.index s.statuses)
    (moved : clusterStep config s (.scanSource 0 found) = some (s', out)) :
    (s'.tasks 0).Settles s'.index s'.statuses := by
  simp only [clusterStep] at moved
  split at moved
  · rename_i work discovering
    rw [discovering] at settled
    obtain ⟨exact, held, stored⟩ := settled
    split at moved
    · cases moved
    · cases moved
      exact settles_setCall ⟨exact, held, stored⟩
    · cases moved
      rw [Cluster.setCall_self]
      refine ⟨exact.rewritten (stored.trans (congrArg some held.symm)), held, ?_⟩
      simp [Discovery.scanned, held]
  · cases moved

theorem settles_finishScan (settled : (s.tasks 0).Settles s.index s.statuses)
    (moved : clusterStep config s (.finishScan 0 now) = some (s', out)) :
    (s'.tasks 0).Settles s'.index s'.statuses := by
  simp only [clusterStep] at moved
  split at moved
  · rename_i work discovering
    rw [discovering] at settled
    obtain ⟨exact, held, stored⟩ := settled
    split at moved
    · split at moved
      · cases moved
        exact settles_setCall exact
      · rename_i status final
        cases moved
        rw [Cluster.setCall_self]
        refine exact.moved (fun phase found => Option.some.inj (found.symm.trans stored)) ?_
        rcases finalize_phase final with failed | running
        · simp [failed]
        · simp [running]
    · cases moved
  · cases moved

theorem settles_put (settled : (s.tasks 0).Settles s.index s.statuses)
    (moved : clusterStep config s (.put 0) = some (s', out)) :
    (s'.tasks 0).Settles s'.index s'.statuses := by
  simp only [clusterStep] at moved
  split at moved
  · rename_i writing
    rw [writing] at settled
    cases moved
    exact settles_setCall settled
  · cases moved

theorem settles_indexPut (settled : (s.tasks 0).Settles s.index s.statuses)
    (moved : clusterStep config s (.indexPut 0) = some (s', out)) :
    (s'.tasks 0).Settles s'.index s'.statuses := by
  simp only [clusterStep] at moved
  split at moved
  · rename_i indexing
    rw [indexing] at settled
    cases moved
    exact settles_setCall settled
  · cases moved

theorem settles_indexDelete (settled : (s.tasks 0).Settles s.index s.statuses)
    (moved : clusterStep config s (.indexDelete 0) = some (s', out)) :
    (s'.tasks 0).Settles s'.index s'.statuses := by
  simp only [clusterStep] at moved
  split at moved
  · rename_i unindexing
    rw [unindexing] at settled
    cases moved
    exact settles_setCall settled
  · cases moved

theorem settles_claimMerge (settled : (s.tasks 0).Settles s.index s.statuses)
    (moved : clusterStep config s (.claimMerge 0 claim) = some (s', out)) :
    (s'.tasks 0).Settles s'.index s'.statuses := by
  simp only [clusterStep] at moved
  split at moved
  · rename_i idle
    split at moved
    · cases moved
      rw [idle] at settled
      simp only [Cluster.beginMerge, Cluster.setCall_self]
      exact settled
    · cases moved
      exact settled
  · cases moved

theorem settles_claimGet (settled : (s.tasks 0).Settles s.index s.statuses)
    (unclaimed : NoMergeClaimed s (.step (.claimGet 0 now)) = true)
    (moved : clusterStep config s (.claimGet 0 now) = some (s', out)) :
    (s'.tasks 0).Settles s'.index s'.statuses := by
  simp only [clusterStep] at moved
  split at moved
  · rename_i claim claiming
    rw [claiming] at settled
    split at moved
    · cases moved
      simp only [Cluster.endMerge, Cluster.setCall_self]
      exact settled
    · rename_i status found
      split at moved
      · cases moved
        simp only [Cluster.endMerge, Cluster.setCall_self]
        exact settled
      · rename_i running
        split at moved
        · cases moved
          simp only [Cluster.endMerge, Cluster.setCall_self]
          exact settled
        · rename_i complete
          simp_all [NoMergeClaimed]
  · cases moved

theorem settles_mark (settled : (s.tasks 0).Settles s.index s.statuses)
    (moved : clusterStep config s (.mark 0 batchId reason now) = some (s', out)) :
    (s'.tasks 0).Settles s'.index s'.statuses := by
  simp only [clusterStep] at moved
  split at moved
  · rename_i idle
    rw [idle] at settled
    split at moved
    · cases moved
      rwa [idle]
    · rename_i status found
      have stored : (s.statuses.get batchId).map (·.phase) = some status.phase := by
        rw [found, Option.map_some]
      split at moved
      · cases moved
        exact settles_setCall (IndexExact.saving settled (.inl stored))
      · cases moved
        exact settles_setCall (IndexExact.saving settled (.inl stored))
  · cases moved

/-- Each step does what the call had left to do, or begins a call with an exact index. -/
theorem settles_of_clusterStep (settled : (s.tasks 0).Settles s.index s.statuses)
    (serial : action.isSerial = true) (unclaimed : NoMergeClaimed s (.step action) = true)
    (moved : clusterStep config s action = some (s', out)) :
    (s'.tasks 0).Settles s'.index s'.statuses := by
  cases action with
  | work action =>
    simp only [clusterStep, Option.map_eq_some_iff] at moved
    obtain ⟨_, _, same⟩ := moved
    cases same
    exact settled
  | lose task reason => cases serial
  | reconcile task spec now =>
    obtain rfl : task = 0 := by simpa [ClusterAction.isSerial] using serial
    exact settles_reconcile settled moved
  | scanUnits task now =>
    obtain rfl : task = 0 := by simpa [ClusterAction.isSerial] using serial
    exact settles_scanUnits settled moved
  | cancel task batchId now =>
    obtain rfl : task = 0 := by simpa [ClusterAction.isSerial] using serial
    exact settles_cancel settled moved
  | scanBatch task spec now =>
    obtain rfl : task = 0 := by simpa [ClusterAction.isSerial] using serial
    exact settles_scanBatch settled moved
  | scanSource task found =>
    obtain rfl : task = 0 := by simpa [ClusterAction.isSerial] using serial
    exact settles_scanSource settled moved
  | finishScan task now =>
    obtain rfl : task = 0 := by simpa [ClusterAction.isSerial] using serial
    exact settles_finishScan settled moved
  | put task =>
    obtain rfl : task = 0 := by simpa [ClusterAction.isSerial] using serial
    exact settles_put settled moved
  | indexPut task =>
    obtain rfl : task = 0 := by simpa [ClusterAction.isSerial] using serial
    exact settles_indexPut settled moved
  | indexDelete task =>
    obtain rfl : task = 0 := by simpa [ClusterAction.isSerial] using serial
    exact settles_indexDelete settled moved
  | claimMerge task claim =>
    obtain rfl : task = 0 := by simpa [ClusterAction.isSerial] using serial
    exact settles_claimMerge settled moved
  | claimGet task now =>
    obtain rfl : task = 0 := by simpa [ClusterAction.isSerial] using serial
    exact settles_claimGet settled unclaimed moved
  | mark task batchId reason now =>
    obtain rfl : task = 0 := by simpa [ClusterAction.isSerial] using serial
    exact settles_mark settled moved
  | verify task | prepare task | rollback task | saveMerge task | execute task | completeGet task
  | failGet task | closeGet task | closePut task =>
    -- No call gets there: its permit was given back in `claimGet`.
    obtain rfl : task = 0 := by simpa [ClusterAction.isSerial] using serial
    simp only [clusterStep] at moved
    split at moved
    · rename_i call
      rw [call] at settled
      cases settled
    · cases moved

theorem settles_submit (config : ClusterConfig)
    (settled : (s.tasks 0).Settles s.index s.statuses)
    (moved : serialStep config s (.submit spec now) = some (s', out)) :
    (s'.tasks 0).Settles s'.index s'.statuses := by
  simp only [serialStep] at moved
  split at moved
  · rename_i idle unstored
    rw [idle] at settled
    split at moved
    · cases moved
      rwa [idle]
    · cases moved
      simp only [idle]
      intro batchId phase
      rw [index_put, settled batchId phase, Kv.get_put]
      split
      · rename_i same
        rw [same, unstored]
        simp [BatchStatus.new, eq_comm]
      · rename_i different
        simp [different]
  · cases moved

/-- Whenever no operation is under way, the index lists every stored batch under its
stored phase and nothing else, as long as no merge is claimed. -/
theorem index_exact_between_operations (exact : IndexExact start.index start.statuses)
    (idle : start.tasks 0 = .idle)
    (run : Run ((serialCluster config).under (fun s operation => NoMergeClaimed s operation)) start
      history s) (rest : s.tasks 0 = .idle) : IndexExact s.index s.statuses := by
  have settled : (s.tasks 0).Settles s.index s.statuses := by
    refine run.invariant (P := fun s => (s.tasks 0).Settles s.index s.statuses)
      (by rw [idle]; exact exact) ?_
    intro s operation s' out settled moved
    obtain ⟨unclaimed, stepped⟩ := (Machine.under_step _ _).mp moved
    cases operation with
    | submit spec now => exact settles_submit config settled stepped
    | step action =>
      simp only [serialCluster, serialStep] at stepped
      split at stepped
      · rename_i serial
        exact settles_of_clusterStep settled serial unclaimed stepped
      · cases stepped
  rw [rest] at settled
  exact settled

/-- One batch of one file, from its submission to the end of its work. -/
def workedOff : List BatchOperation :=
  [.submit oneSource 0, .step (.scanBatch 0 oneSource 0), .step (.put 0), .step (.indexPut 0),
    .step (.indexDelete 0),
    .step (.work (.createStart 1 ⟨"jobs:b", "s3://in/", "s3://out/", "cfg", [(⟨"a", 1⟩, "u")], 0⟩)),
    .step (.work (.createChunk 1 0)), .step (.scanSource 0 (some (1, 1))), .step (.put 0),
    .step (.finishScan 0 0), .step (.put 0), .step (.indexPut 0), .step (.indexDelete 0),
    .step (.work (.scanPending 2 "w")), .step (.work (.claimTxn 2 0)),
    .step (.work (.completeGet 2 "jobs:b" "u" 0)), .step (.work (.completePut 2)),
    .step (.reconcile 0 oneSource 0), .step (.scanUnits 0 0), .step (.put 0)]

/-- One `try_claim_merge` to its success. -/
def mergedAfter : List BatchOperation :=
  [.step (.claimMerge 0 ⟨0, "jobs:b", 1, "s3://out/"⟩), .step (.claimGet 0 0), .step (.put 0),
    .step (.indexPut 0), .step (.indexDelete 0), .step (.verify 0), .step (.prepare 0 "merge" 0),
    .step (.saveMerge 0), .step (.execute 0 (.ok 1)), .step (.completeGet 0 0), .step (.put 0),
    .step (.indexPut 0), .step (.indexDelete 0), .step (.closeGet 0 0), .step (.closePut 0)]

def BatchCall.isIdle : BatchCall → Bool
  | .idle => true
  | _ => false

theorem eq_idle_of_isIdle {call : BatchCall} (idle : call.isIdle = true) : call = .idle := by
  cases call <;> first | rfl | cases idle

/-- The batch is submitted, discovered and worked off, and indexed as `Running` alone. -/
theorem worked_off_batch_is_indexed : ∃ history s,
    Run ((serialCluster ⟨⟨10, 30⟩, 3600, 1⟩).under (fun s operation => NoMergeClaimed s operation))
      .initial history s ∧ IndexExact s.index s.statuses ∧
      (s.statuses.get "jobs:b").map (·.phase) = some .running := by
  obtain ⟨history, s, run, seen⟩ := Run.of_observation
    ((serialCluster ⟨⟨10, 30⟩, 3600, 1⟩).under (fun s operation => NoMergeClaimed s operation))
    .initial workedOff
    (fun reached => ((reached.2.tasks 0).isIdle, (reached.2.statuses.get "jobs:b").map (·.phase)))
    (true, some .running) (by decide)
  simp only [Prod.mk.injEq] at seen
  have exact : IndexExact Cluster.initial.index Cluster.initial.statuses := by
    intro batchId phase
    simp [Cluster.initial]
  exact ⟨history, s, run,
    index_exact_between_operations exact rfl run (eq_idle_of_isIdle seen.1), seen.2⟩

/-- Once that batch is merged it is `Complete`, and still indexed as `Running`. -/
theorem merged_batch_stays_indexed :
    ¬ ∀ history s, Run (serialCluster ⟨⟨10, 30⟩, 3600, 1⟩) .initial history s →
      s.tasks 0 = .idle → IndexExact s.index s.statuses := by
  intro exact
  obtain ⟨history, s, run, seen⟩ := Run.of_observation (serialCluster ⟨⟨10, 30⟩, 3600, 1⟩) .initial
    (workedOff ++ mergedAfter)
    (fun reached => ((reached.2.tasks 0).isIdle, (reached.2.statuses.get "jobs:b").map (·.phase),
      (reached.2.index.get (phaseKey .running "jobs:b")).isSome))
    (true, some .complete, true) (by decide)
  simp only [Prod.mk.injEq] at seen
  obtain ⟨idle, complete, listed⟩ := seen
  have running := (exact history s run (eq_idle_of_isIdle idle) "jobs:b" .running).mp listed
  simp [complete] at running

end Roboflow.Batch
