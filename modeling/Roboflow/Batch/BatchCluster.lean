import Roboflow.Batch.BatchStatus
import Roboflow.Batch.WorkQueue
import Roboflow.Merge.MergeState

/-! The cluster around one status store: the controller's `reconcile_batch` and
`cancel_batch`, the scanner's `process_batch`, the coordinator's
`try_claim_merge` and the finalizer's `mark_batch_complete` and
`mark_batch_failed`, beside the work queue. Each call is cut at its `TikvClient`
calls. No writer of a status uses cas: it puts what it read, changed.

The phase index is written as the source writes it; nothing here reads it, and
which batch a component takes up next is left to the schedule. So are the storage
the scanner lists, and the merge itself. -/
namespace Roboflow.Batch
open Library Merge

/-- The components that put a status. -/
inductive Writer where
  | reconcile | cancel | scanner | claimMerge | completeMerge | failMerge | markComplete
  | markFailed
  deriving DecidableEq, Repr

/-- The arguments of `try_claim_merge`, with the coordinator whose permit it holds. -/
structure MergeClaim where
  coordinator : Nat
  batchId : String
  expectedWorkers : Nat
  outputPath : String

/-- `process_batch` between two puts: its copy of the status, and what is left to scan. -/
structure Discovery where
  spec : BatchSpec
  status : BatchStatus
  remaining : List String
  filesDiscovered : Nat := 0
  jobsCreated : Nat := 0

/-- Where a task is between two `TikvClient` calls. -/
inductive BatchCall where
  | idle
  /-- Before the scan of `reconcile_running`. -/
  | scanning (spec : BatchSpec) (status : BatchStatus)
  | discovering (work : Discovery)
  /-- Before a put of a status. `read` is the phase the writer last saw stored. -/
  | writing (writer : Writer) (batchId : String) (read : Option BatchPhase) (status : BatchStatus)
      (next : BatchCall)
  /-- The two halves of `update_phase_index`. -/
  | indexing (id : String) (old new : BatchPhase) (next : BatchCall)
  | unindexing (id : String) (old : BatchPhase) (next : BatchCall)
  /-- `try_claim_merge` with a permit, before its get. -/
  | claiming (claim : MergeClaim)
  | verifying (claim : MergeClaim)
  | preparing (claim : MergeClaim)
  | rollingBack (claim : MergeClaim)
  | starting (claim : MergeClaim) (state : MergeState)
  | executing (claim : MergeClaim) (state : MergeState)
  /-- Before the get of `complete_merge_with_status`. -/
  | completing (claim : MergeClaim) (outputPath : String) (totalFrames : Nat)
  /-- Before the get of `fail_merge_with_status`. -/
  | failing (claim : MergeClaim) (error : String)
  /-- The status is put; the merge state is still to be closed. -/
  | closing (claim : MergeClaim) (result : MergeResult)
  | closingPut (claim : MergeClaim) (state : MergeState) (result : MergeResult)

/-- The merge claim whose permit the call holds. -/
def BatchCall.claim : BatchCall → Option MergeClaim
  | .writing _ _ _ _ next | .indexing _ _ _ next | .unindexing _ _ next => next.claim
  | .claiming claim | .verifying claim | .preparing claim | .rollingBack claim | .starting claim _
  | .executing claim _ | .completing claim _ _ | .failing claim _ | .closing claim _
  | .closingPut claim _ _ => some claim
  | .idle | .scanning _ _ | .discovering _ => none

/-- What `try_claim_merge` answers when its next `TikvClient` call fails; `none`
where it returns the error itself. -/
def BatchCall.onError (error : String) : BatchCall → Option MergeResult
  | .writing .claimMerge _ _ _ _ => none
  | .writing _ _ _ _ next | .indexing _ _ _ next | .unindexing _ _ next => next.onError error
  | .rollingBack _ => some .notReady
  | .closingPut _ _ result => some result
  | .failing _ reason | .closing _ (.failed reason) => some (.failed reason)
  | .completing _ _ _ | .closing _ _ => some (.failed error)
  | _ => none

structure Cluster where
  work : WorkState
  statuses : Kv String BatchStatus
  mergeStates : Kv String MergeState
  index : Kv String Unit
  /-- The permits a coordinator's semaphore has left. -/
  permits : Nat → Nat
  tasks : Nat → BatchCall

/-- Nothing stored, no task in a call, one permit for each coordinator. -/
def Cluster.initial : Cluster := ⟨.initial, .empty, .empty, .empty, fun _ => 1, fun _ => .idle⟩

/-- A spec that passes validation; its batch is `jobs:b`. -/
def oneSource : BatchSpec := ⟨"jobs", "b", ["s3://in/"], "s3://out/", "cfg", 3⟩

/-- A `Running` batch of the given units, none of them counted yet. -/
def runningBatch (units : List (String × WorkUnitStatus)) : Cluster :=
  { Cluster.initial with
    work := { WorkState.initial with
      units := Kv.empty.putAll (units.map fun unit =>
        (unitKey oneSource.batchId unit.1,
          { WorkUnit.withId unit.1 oneSource.batchId [] "s3://out/" "cfg" 0 with status := unit.2 })) }
    statuses := Kv.empty.put oneSource.batchId
      { BatchStatus.new 0 with phase := .running, workUnitsTotal := units.length } }

structure ClusterConfig where
  work : WorkConfig
  /-- `ControllerConfig::discovery_timeout`, in seconds. -/
  discoveryTimeout : Nat
  /-- The permits of one coordinator's semaphore. -/
  maxConcurrentMerges : Nat

inductive ClusterOut where
  | work (out : WorkOut)
  | working
  | finished
  /-- `Err("No merge permits available")`. -/
  | noPermit
  /-- `execute_merge` is called. -/
  | executes (batchId : String)
  | merged (batchId : String) (result : MergeResult)

inductive ClusterAction where
  | work (action : WorkAction)
  | reconcile (task : Nat) (spec : BatchSpec) (now : Time)
  | scanUnits (task : Nat) (now : Time)
  | cancel (task : Nat) (batchId : String) (now : Time)
  | scanBatch (task : Nat) (spec : BatchSpec) (now : Time)
  /-- One source: `none` when listing or creating failed, else files and new units. -/
  | scanSource (task : Nat) (found : Option (Nat × Nat))
  | finishScan (task : Nat) (now : Time)
  | put (task : Nat)
  | indexPut (task : Nat)
  | indexDelete (task : Nat)
  | claimMerge (task : Nat) (claim : MergeClaim)
  | claimGet (task : Nat) (now : Time)
  | verify (task : Nat)
  | prepare (task : Nat) (worker : String) (now : Time)
  | rollback (task : Nat)
  | saveMerge (task : Nat)
  | execute (task : Nat) (result : Except String Nat)
  | completeGet (task : Nat) (now : Time)
  | failGet (task : Nat) (now : Time)
  | closeGet (task : Nat) (now : Time)
  | closePut (task : Nat)
  /-- `mark_batch_complete`, or `mark_batch_failed` with its error. -/
  | mark (task : Nat) (batchId : String) (error : Option String) (now : Time)
  /-- The task's next `TikvClient` call fails. -/
  | lose (task : Nat) (error : String)

/-- The steps of `try_claim_merge`. -/
def ClusterAction.isMerge : ClusterAction → Bool
  | .put _ | .indexPut _ | .indexDelete _ | .claimMerge .. | .claimGet .. | .verify _ | .prepare ..
  | .rollback _ | .saveMerge _ | .execute .. | .completeGet .. | .failGet .. | .closeGet ..
  | .closePut _ | .lose .. => true
  | _ => false

/-- `update_phase_index`, as what is to be done before the rest of a call. -/
def indexed (id : String) (old new : BatchPhase) (next : BatchCall) : BatchCall :=
  if old = new then next else .indexing id old new next

/-- A put of a status followed by the update of its index. -/
def saving (writer : Writer) (batchId : String) (read : Option BatchPhase) (old : BatchPhase)
    (status : BatchStatus) : BatchCall :=
  .writing writer batchId read status (indexed batchId old status.phase .idle)

/-- The units the scan of `reconcile_running` returns: its prefix has no closing slash. -/
def scanBatchUnits (units : Kv String WorkUnit) (batchId : String) : List WorkUnit :=
  (units.scan (fun key => batchId.toList.isPrefixOf key.toList) 10000).map Prod.snd

/-- `initialize_discovery_phase`. -/
def initializeDiscovery (spec : BatchSpec) (status : BatchStatus) (now : Time) : BatchStatus :=
  { status.transitionTo .discovering now with
    discoveryStatus := some { totalSources := spec.sources.length % 2 ^ 32 } }

def DiscoveryStatus.addFiles (discovery : DiscoveryStatus) (count : Nat) : DiscoveryStatus :=
  { discovery with filesFound := (discovery.filesFound + count) % 2 ^ 32 }

def DiscoveryStatus.incrementScanned (discovery : DiscoveryStatus) : DiscoveryStatus :=
  { discovery with sourcesScanned := (discovery.sourcesScanned + 1) % 2 ^ 32 }

/-- `process_batch` after one source was scanned. -/
def Discovery.scanned (work : Discovery) (rest : List String) (files jobs : Nat) : Discovery :=
  { work with
    status := { work.status with
      filesTotal := (work.status.filesTotal + files) % 2 ^ 32
      discoveryStatus := work.status.discoveryStatus.map fun discovery =>
        (discovery.addFiles (files % 2 ^ 32)).incrementScanned }
    remaining := rest
    filesDiscovered := work.filesDiscovered + files
    jobsCreated := work.jobsCreated + jobs }

/-- `finalize_batch_phase`: the status to put, if every source was scanned. -/
def Discovery.finalize (work : Discovery) (now : Time) : Option BatchStatus :=
  let totalSources := work.spec.sources.length % 2 ^ 32
  if (work.status.discoveryStatus.map (·.sourcesScanned)).getD 0 < totalSources then none
  else if work.jobsCreated = 0 ∧ work.filesDiscovered = 0 then
    some { work.status.transitionTo .failed now with
      error := some ("No files discovered from " ++ toString totalSources ++ " source(s)") }
  else
    some ({ work.status with workUnitsTotal := work.jobsCreated % 2 ^ 32 }.transitionTo .running now)

namespace Cluster

def setCall (s : Cluster) (task : Nat) (call : BatchCall) : Cluster :=
  { s with tasks := Function.update s.tasks task call }

/-- `try_claim_merge` takes a permit. -/
def beginMerge (s : Cluster) (task : Nat) (claim : MergeClaim) : Cluster :=
  { s with
    permits := Function.update s.permits claim.coordinator
      (s.permits claim.coordinator - 1) }.setCall task (.claiming claim)

/-- `try_claim_merge` returns, and drops its permit. -/
def endMerge (config : ClusterConfig) (s : Cluster) (task : Nat) (claim : MergeClaim) : Cluster :=
  { s with
    permits := Function.update s.permits claim.coordinator
      (min config.maxConcurrentMerges (s.permits claim.coordinator + 1)) }.setCall task .idle

end Cluster

/-- One step of one task. -/
def clusterStep (config : ClusterConfig) (s : Cluster) :
    ClusterAction → Option (Cluster × ClusterOut)
  | .work action =>
    (workStep config.work s.work action).map fun answer =>
      ({ s with work := answer.1 }, .work answer.2)
  | .reconcile task spec now =>
    match s.tasks task with
    | .idle =>
      let stored := s.statuses.get spec.batchId
      let status := stored.getD (.new now)
      match status.phase with
      | .complete | .cancelled => some (s, .finished)
      | .running | .failed => some (s.setCall task (.scanning spec status), .working)
      | _ =>
        some (s.setCall task (saving .reconcile spec.batchId (stored.map (·.phase)) status.phase
          (reconcilePhase config.discoveryTimeout spec status now)), .working)
    | _ => none
  | .scanUnits task now =>
    match s.tasks task with
    | .scanning spec status =>
      let units := scanBatchUnits s.work.units spec.batchId
      some (s.setCall task (saving .reconcile spec.batchId (some status.phase) status.phase
        (reconcileRunning spec status units now)), .working)
    | _ => none
  | .cancel task batchId now =>
    match s.tasks task with
    | .idle =>
      match s.statuses.get batchId with
      | none => some (s, .finished)
      | some status =>
        if status.phase.isActive ∨ status.phase = .pending then
          some (s.setCall task (saving .cancel batchId (some status.phase) status.phase
            (status.transitionTo .cancelled now)), .working)
        else some (s, .finished)
    | _ => none
  | .scanBatch task spec now =>
    match s.tasks task with
    | .idle =>
      let stored := s.statuses.get spec.batchId
      let status := stored.getD (.new now)
      match status.phase with
      | .pending =>
        let status' := initializeDiscovery spec status now
        some (s.setCall task (.writing .scanner spec.batchId (stored.map (·.phase)) status'
          (.indexing spec.batchId .pending .discovering
            (.discovering { spec := spec, status := status', remaining := spec.sources }))),
          .working)
      | .discovering =>
        let processed := (status.discoveryStatus.map (·.sourcesScanned)).getD 0
        some (s.setCall task (.discovering {
          spec := spec
          status := status
          remaining := spec.sources.drop processed }), .working)
      | _ => some (s, .finished)
    | _ => none
  | .scanSource task found =>
    match s.tasks task with
    | .discovering work =>
      match work.remaining, found with
      | [], _ => none
      | _ :: rest, none =>
        some (s.setCall task (.discovering { work with remaining := rest }), .working)
      | _ :: rest, some (files, jobs) =>
        let work' := work.scanned rest files jobs
        some (s.setCall task (.writing .scanner work.spec.batchId (some work.status.phase)
          work'.status (.discovering work')), .working)
    | _ => none
  | .finishScan task now =>
    match s.tasks task with
    | .discovering work =>
      if work.remaining = [] then
        match work.finalize now with
        | none => some (s.setCall task .idle, .finished)
        | some status =>
          some (s.setCall task (.writing .scanner work.spec.batchId (some work.status.phase) status
            (.indexing work.spec.batchId .discovering status.phase .idle)), .working)
      else none
    | _ => none
  | .put task =>
    match s.tasks task with
    | .writing _ batchId _ status next =>
      some ({ s with statuses := s.statuses.put batchId status }.setCall task next, .working)
    | _ => none
  | .indexPut task =>
    match s.tasks task with
    | .indexing id old new next =>
      some ({ s with index := s.index.put (new.text ++ "/" ++ id) () }.setCall task
        (.unindexing id old next), .working)
    | _ => none
  | .indexDelete task =>
    match s.tasks task with
    | .unindexing id old next =>
      some ({ s with index := s.index.delete (old.text ++ "/" ++ id) }.setCall task next, .working)
    | _ => none
  | .claimMerge task claim =>
    match s.tasks task with
    | .idle =>
      if 0 < s.permits claim.coordinator then
        some (s.beginMerge task claim, .working)
      else some (s, .noPermit)
    | _ => none
  | .claimGet task now =>
    match s.tasks task with
    | .claiming claim =>
      match s.statuses.get claim.batchId with
      | none => some (s.endMerge config task claim, .merged claim.batchId .notFound)
      | some status =>
        if status.phase ≠ .running then
          some (s.endMerge config task claim, .merged claim.batchId .notClaimed)
        else if !status.isComplete then
          some (s.endMerge config task claim, .merged claim.batchId .notReady)
        else
          -- The index key is built from the status key, not from the batch id.
          some (s.setCall task (.writing .claimMerge claim.batchId (some status.phase)
            (status.transitionTo .merging now)
            (.indexing ("statuses/" ++ claim.batchId) .running .merging (.verifying claim))),
            .working)
    | _ => none
  | .verify task =>
    match s.tasks task with
    | .verifying claim =>
      if (s.statuses.get claim.batchId).isSome then
        some (s.setCall task (.preparing claim), .working)
      else some (s.endMerge config task claim, .merged claim.batchId .notClaimed)
    | _ => none
  | .prepare task worker now =>
    match s.tasks task with
    | .preparing claim =>
      let state := getOrCreate (s.mergeStates.get claim.batchId) claim.batchId
        claim.expectedWorkers claim.outputPath now
      match ensureMergeReady state claim.expectedWorkers claim.outputPath now with
      | none => some (s.setCall task (.rollingBack claim), .working)
      | some ready =>
        match ready.startMerge worker now with
        | .error reason => some (s.setCall task (.failing claim reason), .working)
        | .ok started => some (s.setCall task (.starting claim started), .working)
    | _ => none
  | .rollback task =>
    match s.tasks task with
    | .rollingBack claim =>
      some ({ s with statuses := s.statuses.delete claim.batchId }.endMerge config task claim,
        .merged claim.batchId .notReady)
    | _ => none
  | .saveMerge task =>
    match s.tasks task with
    | .starting claim state =>
      some ({ s with mergeStates := s.mergeStates.put claim.batchId state }.setCall task
        (.executing claim state), .executes claim.batchId)
    | _ => none
  | .execute task result =>
    match s.tasks task with
    | .executing claim state =>
      match result with
      | .ok frames =>
        some (s.setCall task (.completing claim state.outputPath frames), .working)
      | .error reason => some (s.setCall task (.failing claim reason), .working)
    | _ => none
  | .completeGet task now =>
    match s.tasks task with
    | .completing claim outputPath frames =>
      match s.statuses.get claim.batchId with
      | none =>
        some (s.endMerge config task claim, .merged claim.batchId
          (.failed ("Key not found: Batch status not found: " ++ claim.batchId)))
      | some status =>
        some (s.setCall task (.writing .completeMerge claim.batchId (some status.phase)
          (status.transitionTo .complete now)
          (.indexing claim.batchId .merging .complete
            (.closing claim (.success outputPath frames)))), .working)
    | _ => none
  | .failGet task now =>
    match s.tasks task with
    | .failing claim reason =>
      match s.statuses.get claim.batchId with
      | none => some (s.endMerge config task claim, .merged claim.batchId (.failed reason))
      | some status =>
        some (s.setCall task (.writing .failMerge claim.batchId (some status.phase)
          { status.transitionTo .failed now with error := some reason }
          (indexed claim.batchId status.phase .failed (.closing claim (.failed reason)))), .working)
    | _ => none
  | .closeGet task now =>
    match s.tasks task with
    | .closing claim result =>
      match s.mergeStates.get claim.batchId with
      | none => some (s.endMerge config task claim, .merged claim.batchId result)
      | some state => some (s.setCall task (.closingPut claim (state.close result now) result), .working)
    | _ => none
  | .closePut task =>
    match s.tasks task with
    | .closingPut claim state result =>
      some ({ s with mergeStates := s.mergeStates.put claim.batchId state }.endMerge config task claim,
        .merged claim.batchId result)
    | _ => none
  | .mark task batchId error now =>
    match s.tasks task with
    | .idle =>
      match s.statuses.get batchId with
      | none => some (s, .finished)
      | some status =>
        match error with
        | none =>
          some (s.setCall task (saving .markComplete batchId (some status.phase) status.phase
            (status.transitionTo .complete now)), .working)
        | some reason =>
          some (s.setCall task (saving .markFailed batchId (some status.phase) status.phase
            { status.transitionTo .failed now with error := some reason }), .working)
    | _ => none
  | .lose task error =>
    match s.tasks task with
    | .idle => none
    -- Once a merge has ended, an error of `update_phase_index` is dropped.
    | .indexing _ _ _ (.closing claim result) | .unindexing _ _ (.closing claim result) =>
      some (s.setCall task (.closing claim result), .working)
    | call =>
      match call.claim with
      | none => some (s.setCall task .idle, .finished)
      | some claim =>
        some (s.endMerge config task claim,
          ((call.onError error).map (.merged claim.batchId)).getD .finished)

def cluster (config : ClusterConfig) : Machine Cluster ClusterAction ClusterOut :=
  ⟨clusterStep config⟩

end Roboflow.Batch
