import Roboflow.Library.Kv
import Roboflow.Library.Machine
import Roboflow.Batch.WorkUnit

/-! The work queue as a machine: `claim_work_unit`, `complete_work_unit` and
`fail_work_unit` of `batch/controller.rs`, `reclaim_work_unit` of `reaper.rs` and
`create_work_units_for_files` of `scanner.rs`, each cut at its `TikvClient`
calls. A call is one atomic step on the latest committed state; between two
steps of one call any other task may run.

TiKV is kept as one store for each key namespace. The namespaces are told apart
by a fixed segment (`batch/workunits`, `batch/pending`, `heartbeat`), and a key
is stored here as the text after that segment. A task that crashes, or whose
`TikvClient` call returns an error, is a task that takes no further step. -/
namespace Roboflow.Batch
open Library Tikv

/-! ## Keys -/

/-- The suffix `{batch_id}/{unit_id}` that `WorkUnitKeys::unit` puts after
`batch/workunits/` and `WorkUnitKeys::pending` after `batch/pending/`. -/
def unitKey (batchId unitId : String) : String := batchId ++ "/" ++ unitId

/-- `str::split_once('/')`. -/
def splitOnce (text : List Char) : Option (List Char × List Char) :=
  match text.dropWhile (· ≠ '/') with
  | [] => none
  | _ :: after => some (text.takeWhile (· ≠ '/'), after)

/-- How `claim_work_unit` reads a pending key: what `strip_prefix` leaves begins
with the separator, `trim_start_matches('/')` drops every leading slash, and
`split_once('/')` separates batch and unit. -/
def parsePendingKey (key : String) : Option (String × String) :=
  (splitOnce (('/' :: key.toList).dropWhile (· = '/'))).map fun parts =>
    (String.ofList parts.1, String.ofList parts.2)

theorem splitOnce_part {part rest : List Char} (free : '/' ∉ part) :
    splitOnce (part ++ '/' :: rest) = some (part, rest) := by
  have inside : ∀ c ∈ part, decide (c ≠ '/') = true := by
    intro c member
    exact decide_eq_true fun slash => free (slash ▸ member)
  rw [splitOnce, List.dropWhile_append_of_pos inside, List.takeWhile_append_of_pos inside]
  simp

theorem dropWhile_part {part rest : List Char} (free : '/' ∉ part) (nonempty : part ≠ []) :
    (part ++ '/' :: rest).dropWhile (· = '/') = part ++ '/' :: rest := by
  cases part with
  | nil => exact absurd rfl nonempty
  | cons c more =>
    have first : c ≠ '/' := fun slash => free (slash ▸ List.mem_cons_self)
    simp [first]

/-- A key with a batch id in front of its first slash is read as it was built. -/
theorem parsePendingKey_unitKey (free : '/' ∉ batchId.toList) (nonempty : batchId ≠ "") (unitId : String) :
    parsePendingKey (unitKey batchId unitId) = some (batchId, unitId) := by
  have some : batchId.toList ≠ [] := fun empty => nonempty (String.toList_inj.mp (by simpa using empty))
  rw [parsePendingKey, unitKey, List.dropWhile_cons_of_pos (by simp), String.toList_append,
    String.toList_append, List.append_assoc]
  change (splitOnce ((batchId.toList ++ '/' :: unitId.toList).dropWhile (· = '/'))).map _ = _
  rw [dropWhile_part free some, splitOnce_part free]
  simp

/-! ## The machine -/

/-- `ObjectMetadata`, the fields a new work unit takes. -/
structure ObjectMetadata where
  path : String
  size : Nat
  deriving DecidableEq

/-- The arguments of `create_work_units_for_files`, with the files still to write. -/
structure Creation where
  batchId : String
  sourceUrl : String
  outputPrefix : String
  configHash : String
  files : List (ObjectMetadata × String)
  created : Nat := 0

/-- A successful `claim_work_unit` whose unit was not yet completed or failed. -/
structure Claim where
  worker : String
  key : String
  attempt : Nat
  deriving DecidableEq

/-- Where a task is between two `TikvClient` calls. -/
inductive Call where
  | idle
  /-- `claim_work_unit` after its scan. -/
  | claiming (worker pendingKey : String)
  /-- `complete_work_unit` after its get, holding the record it will put. -/
  | completing (key : String) (unit : WorkUnit)
  /-- `fail_work_unit` after its get, holding the record it will put. -/
  | failing (key batchId : String) (unit : WorkUnit)
  /-- `fail_work_unit` between its two puts. -/
  | requeueing (key batchId : String)
  /-- `reclaim_work_unit` after it judged the owner stale. -/
  | reclaiming (key owner : String)
  | creating (work : Creation)

structure Task where
  claim : Option Claim := none
  call : Call := .idle

/-- The task has claimed this unit, and neither completed nor failed it since. -/
def Task.holds (task : Task) (key : String) : Bool :=
  task.claim.any fun claim => claim.key = key

/-- The stored records, and every task's place in its call. -/
structure WorkState where
  units : Kv String WorkUnit
  pending : Kv String String
  heartbeats : Kv String HeartbeatRecord
  tasks : Nat → Task

/-- Nothing stored and no task in a call. -/
def WorkState.initial : WorkState := ⟨.empty, .empty, .empty, fun _ => {}⟩

/-- One queued unit that may be tried three times. -/
def oneUnit : WorkState :=
  { WorkState.initial with
    units := Kv.empty.put "b/u" (.withId "u" "b" [] "out" "cfg" 0)
    pending := Kv.empty.put "b/u" "b" }

structure WorkConfig where
  /-- `ScannerConfig::batch_size`. -/
  batchSize : Nat
  /-- `ReaperConfig::stale_threshold`, in seconds. -/
  staleThreshold : Int

inductive ReclaimResult where
  | reclaimed | notStale | skipped
  deriving DecidableEq, Repr

/-- What the caller sees of one step. -/
inductive WorkOut where
  | working
  | notClaimed
  | claimed (key : String) (unit : WorkUnit)
  | updated (found : Bool)
  | reclaim (result : ReclaimResult)
  | created (count : Nat)
  deriving DecidableEq

inductive WorkAction where
  | scanPending (task : Nat) (worker : String)
  | claimTxn (task : Nat) (now : Time)
  | completeGet (task : Nat) (batchId unitId : String) (now : Time)
  | completePut (task : Nat)
  | failGet (task : Nat) (batchId unitId error : String) (now : Time)
  | failPut (task : Nat)
  | failRequeue (task : Nat)
  | reclaimGet (task : Nat) (batchId unitId owner : String) (now : Time)
  | reclaimTxn (task : Nat) (now : Time)
  | createStart (task : Nat) (work : Creation)
  | createChunk (task : Nat) (now : Time)
  | heartbeat (podId : String) (now : Time)

/-- Whose step it is; heartbeats are written by a task of their own. -/
def WorkAction.task : WorkAction → Option Nat
  | .scanPending task _ | .claimTxn task _ | .completeGet task .. | .completePut task
  | .failGet task .. | .failPut task | .failRequeue task | .reclaimGet task .. | .reclaimTxn task _
  | .createStart task _ | .createChunk task _ => some task
  | .heartbeat .. => none

namespace WorkState

def setTask (s : WorkState) (task : Nat) (next : Task) : WorkState :=
  { s with tasks := Function.update s.tasks task next }

/-- Move a task to another place, keeping the claim it holds. -/
def setCall (s : WorkState) (task : Nat) (call : Call) : WorkState :=
  s.setTask task { s.tasks task with call := call }

/-- The unit put of `complete_work_unit` or `fail_work_unit`: it settles the
claim the task holds on that unit, if it holds one. -/
def settle (s : WorkState) (task : Nat) (key : String) (unit : WorkUnit) (next : Call) : WorkState :=
  { s with units := s.units.put key unit }.setTask task {
    claim := (s.tasks task).claim.filter fun claim => claim.key ≠ key
    call := next }

end WorkState

/-- `Scanner::create_work_unit`. -/
def createWorkUnit (work : Creation) (metadata : ObjectMetadata) (hash : String) (now : Time) :
    WorkUnit :=
  .withId hash work.batchId [{ url := work.sourceUrl, size := metadata.size }] work.outputPrefix
    work.configHash now

/-- The `work_unit_pairs` of one chunk. -/
def Creation.unitPairs (work : Creation) (chunk : List (ObjectMetadata × String)) (now : Time) :
    List (String × WorkUnit) :=
  chunk.map fun file => (unitKey work.batchId file.2, createWorkUnit work file.1 file.2 now)

/-- The `pending_pairs` of one chunk. -/
def Creation.pendingPairs (work : Creation) (chunk : List (ObjectMetadata × String)) :
    List (String × String) :=
  chunk.map fun file => (unitKey work.batchId file.2, work.batchId)

/-- The error text `reclaim_work_unit` records. -/
def reclaimError : String := "Worker died during processing"

/-- One step of one task. -/
def workStep (config : WorkConfig) (s : WorkState) : WorkAction → Option (WorkState × WorkOut)
  | .scanPending task worker =>
    match s.tasks task with
    | ⟨none, .idle⟩ =>
      -- `scan(pending_prefix, 1)`: the first pending key in key order.
      match s.pending.scan (fun _ => true) 1 with
      | [] => some (s, .notClaimed)
      | (key, _) :: _ =>
        match parsePendingKey key with
        | none => some (s, .notClaimed)
        | some _ => some (s.setCall task (.claiming worker key), .working)
    | _ => none
  | .claimTxn task now =>
    match (s.tasks task).call with
    | .claiming worker pendingKey =>
      match parsePendingKey pendingKey with
      | none => none
      | some (batchId, unitId) =>
        let key := unitKey batchId unitId
        match s.units.get key with
        | none =>
          some ({ s with pending := s.pending.delete pendingKey }.setCall task .idle, .notClaimed)
        | some unit =>
          match unit.claim worker now with
          | .error _ => some (s.setCall task .idle, .notClaimed)
          | .ok unit' =>
            some ({ s with
                units := s.units.put key unit'
                pending := s.pending.delete pendingKey }.setTask task {
                  claim := some ⟨worker, key, unit'.attempts⟩ },
              .claimed key unit')
    | _ => none
  | .completeGet task batchId unitId now =>
    match (s.tasks task).call with
    | .idle =>
      match s.units.get (unitKey batchId unitId) with
      | none => some (s, .updated false)
      | some unit =>
        some (s.setCall task (.completing (unitKey batchId unitId) (unit.complete now)), .working)
    | _ => none
  | .completePut task =>
    match (s.tasks task).call with
    | .completing key unit => some (s.settle task key unit .idle, .updated true)
    | _ => none
  | .failGet task batchId unitId error now =>
    match (s.tasks task).call with
    | .idle =>
      match s.units.get (unitKey batchId unitId) with
      | none => some (s, .updated false)
      | some unit =>
        some (s.setCall task
          (.failing (unitKey batchId unitId) batchId (unit.fail error now)), .working)
    | _ => none
  | .failPut task =>
    match (s.tasks task).call with
    | .failing key batchId unit =>
      -- Only a unit that may be retried goes back to the queue.
      if unit.status = .failed then
        some (s.settle task key unit (.requeueing key batchId), .working)
      else some (s.settle task key unit .idle, .updated true)
    | _ => none
  | .failRequeue task =>
    match (s.tasks task).call with
    | .requeueing key batchId =>
      some ({ s with pending := s.pending.put key batchId }.setCall task .idle, .updated true)
    | _ => none
  | .reclaimGet task batchId unitId owner now =>
    match (s.tasks task).call with
    | .idle =>
      match s.heartbeats.get owner with
      | some record =>
        if record.isStale config.staleThreshold now then
          some (s.setCall task (.reclaiming (unitKey batchId unitId) owner), .working)
        else some (s, .reclaim .notStale)
      | none => some (s.setCall task (.reclaiming (unitKey batchId unitId) owner), .working)
    | _ => none
  | .reclaimTxn task now =>
    match (s.tasks task).call with
    | .reclaiming key owner =>
      -- `transactional_claim` with an empty pending key: no queue entry is written or removed.
      match s.units.get key with
      | none => some (s.setCall task .idle, .reclaim .skipped)
      | some unit =>
        if unit.status = .processing ∧ unit.owner = some owner then
          some ({ s with units := s.units.put key (unit.fail reclaimError now) }.setCall task .idle,
            .reclaim .reclaimed)
        else some (s.setCall task .idle, .reclaim .skipped)
    | _ => none
  | .createStart task work =>
    match (s.tasks task).call with
    | .idle => some (s.setCall task (.creating work), .working)
    | _ => none
  | .createChunk task now =>
    match (s.tasks task).call with
    | .creating work =>
      if work.files = [] then some (s.setCall task .idle, .created work.created)
      else if config.batchSize = 0 then none
      else
        let chunk := work.files.take config.batchSize
        some ({ s with
            units := s.units.putAll (work.unitPairs chunk now)
            pending := s.pending.putAll (work.pendingPairs chunk) }.setCall task
          (.creating { work with
            files := work.files.drop config.batchSize
            created := work.created + chunk.length }), .working)
    | _ => none
  | .heartbeat podId now =>
    some ({ s with heartbeats := s.heartbeats.put podId ⟨podId, now⟩ }, .working)

def workQueue (config : WorkConfig) : Machine WorkState WorkAction WorkOut := ⟨workStep config⟩

abbrev WorkHistory := History WorkState WorkAction WorkOut

/-- A worker calls `complete_work_unit` and `fail_work_unit` only for a unit it
claimed, and once for each claim. -/
def OwnClaims (s : WorkState) : WorkAction → Bool
  | .completeGet task batchId unitId _ => (s.tasks task).holds (unitKey batchId unitId)
  | .failGet task batchId unitId _ _ => (s.tasks task).holds (unitKey batchId unitId)
  | _ => true

/-- The reaper's calls. -/
def WorkAction.isReclaim : WorkAction → Bool
  | .reclaimGet .. | .reclaimTxn .. => true
  | _ => false

/-- The scanner's calls. -/
def WorkAction.isCreate : WorkAction → Bool
  | .createStart .. | .createChunk .. => true
  | _ => false

/-! ## What a step can do -/

namespace WorkState

variable (s : WorkState) (task : Nat)

@[simp] theorem setTask_self (next : Task) : (s.setTask task next).tasks task = next := by
  simp [setTask]

theorem setTask_other (next : Task) (different : other ≠ task) :
    (s.setTask task next).tasks other = s.tasks other := by
  simp [setTask, different]

@[simp] theorem setTask_units (next : Task) : (s.setTask task next).units = s.units := rfl
@[simp] theorem setTask_pending (next : Task) : (s.setTask task next).pending = s.pending := rfl
@[simp] theorem setCall_units (call : Call) : (s.setCall task call).units = s.units := rfl
@[simp] theorem setCall_pending (call : Call) : (s.setCall task call).pending = s.pending := rfl

@[simp] theorem settle_units (key : String) (unit : WorkUnit) (next : Call) :
    (s.settle task key unit next).units = s.units.put key unit := rfl
@[simp] theorem settle_pending (key : String) (unit : WorkUnit) (next : Call) :
    (s.settle task key unit next).pending = s.pending := rfl

theorem settle_other (key : String) (unit : WorkUnit) (next : Call) (different : other ≠ task) :
    (s.settle task key unit next).tasks other = s.tasks other :=
  setTask_other _ task _ different

/-- A settled unit is no longer held by the task that settled it. -/
@[simp] theorem settle_holds (key : String) (unit : WorkUnit) (next : Call) :
    ((s.settle task key unit next).tasks task).holds key = false := by
  cases claim : (s.tasks task).claim with
  | none => simp [settle, Task.holds, claim]
  | some held =>
    by_cases named : held.key = key <;> simp [settle, Task.holds, claim, Option.filter, named]

/-- Settling one unit gives up no other claim and takes none. -/
theorem settle_holds_ne (key : String) (unit : WorkUnit) (next : Call) (different : other ≠ key) :
    ((s.settle task key unit next).tasks task).holds other = (s.tasks task).holds other := by
  cases claim : (s.tasks task).claim with
  | none => simp [settle, Task.holds, claim]
  | some held =>
    by_cases named : held.key = key
    · have elsewhere : key ≠ other := Ne.symm different
      simp [settle, Task.holds, claim, Option.filter, named, elsewhere]
    · simp [settle, Task.holds, claim, Option.filter, named]

@[simp] theorem setCall_claim (call : Call) (other : Nat) :
    ((s.setCall task call).tasks other).claim = (s.tasks other).claim := by
  by_cases same : other = task
  · subst same
    simp [setCall]
  · rw [setCall, setTask_other _ _ _ same]

@[simp] theorem setCall_call (call : Call) : ((s.setCall task call).tasks task).call = call := by
  simp [setCall]

theorem setCall_other (call : Call) (different : other ≠ task) :
    (s.setCall task call).tasks other = s.tasks other :=
  setTask_other s task _ different

end WorkState

/-- The calls that are about to write a record they read earlier, or that still
owe the queue an entry. -/
def Call.armed : Call → Bool
  | .completing .. | .failing .. | .requeueing .. => true
  | _ => false

/-- A step that touches no unit, no queue entry and no claim, and that neither
arms nor disarms a call. -/
structure Quiet (s s' : WorkState) : Prop where
  units : s'.units = s.units
  pending : s'.pending = s.pending
  claim : ∀ task, (s'.tasks task).claim = (s.tasks task).claim
  call : ∀ task, (s'.tasks task).call = (s.tasks task).call ∨
    ((s.tasks task).call.armed = false ∧ (s'.tasks task).call.armed = false)

/-- Every way one step changes units, queue entries, claims or armed calls. -/
inductive WorkMove (s : WorkState) : WorkAction → WorkOut → WorkState → Prop where
  | quiet (still : Quiet s s') (unclaimed : ∀ key unit, out ≠ .claimed key unit) :
      WorkMove s action out s'
  | dropped (call : (s.tasks task).call = .claiming worker pendingKey)
      (parsed : parsePendingKey pendingKey = some (batchId, unitId))
      (absent : s.units.get (unitKey batchId unitId) = none) :
      WorkMove s (.claimTxn task now) .notClaimed
        ({ s with pending := s.pending.delete pendingKey }.setCall task .idle)
  | claimed (call : (s.tasks task).call = .claiming worker pendingKey)
      (parsed : parsePendingKey pendingKey = some (batchId, unitId))
      (stored : s.units.get (unitKey batchId unitId) = some unit)
      (claimable : unit.isClaimable = true) :
      WorkMove s (.claimTxn task now)
        (.claimed (unitKey batchId unitId) (unit.claimedBy worker now))
        ({ s with
            units := s.units.put (unitKey batchId unitId) (unit.claimedBy worker now)
            pending := s.pending.delete pendingKey }.setTask task {
              claim := some ⟨worker, unitKey batchId unitId, unit.attempts + 1⟩ })
  | completeRead (call : (s.tasks task).call = .idle)
      (stored : s.units.get (unitKey batchId unitId) = some unit) :
      WorkMove s (.completeGet task batchId unitId now) .working
        (s.setCall task (.completing (unitKey batchId unitId) (unit.complete now)))
  | completed (call : (s.tasks task).call = .completing key unit) :
      WorkMove s (.completePut task) (.updated true) (s.settle task key unit .idle)
  | failRead (call : (s.tasks task).call = .idle)
      (stored : s.units.get (unitKey batchId unitId) = some unit) :
      WorkMove s (.failGet task batchId unitId message now) .working
        (s.setCall task (.failing (unitKey batchId unitId) batchId (unit.fail message now)))
  | failedRetry (call : (s.tasks task).call = .failing key batchId unit)
      (retry : unit.status = .failed) :
      WorkMove s (.failPut task) .working (s.settle task key unit (.requeueing key batchId))
  | failedDead (call : (s.tasks task).call = .failing key batchId unit)
      (final : unit.status ≠ .failed) :
      WorkMove s (.failPut task) (.updated true) (s.settle task key unit .idle)
  | requeued (call : (s.tasks task).call = .requeueing key batchId) :
      WorkMove s (.failRequeue task) (.updated true)
        ({ s with pending := s.pending.put key batchId }.setCall task .idle)
  | reclaimed (call : (s.tasks task).call = .reclaiming key owner)
      (stored : s.units.get key = some unit) (processing : unit.status = .processing)
      (owned : unit.owner = some owner) :
      WorkMove s (.reclaimTxn task now) (.reclaim .reclaimed)
        ({ s with units := s.units.put key (unit.fail reclaimError now) }.setCall task .idle)
  | created (call : (s.tasks task).call = .creating work) (chunk : List (ObjectMetadata × String))
      (rest : Creation) :
      WorkMove s (.createChunk task now) .working
        ({ s with
            units := s.units.putAll (work.unitPairs chunk now)
            pending := s.pending.putAll (work.pendingPairs chunk) }.setCall task (.creating rest))

private theorem quiet_self (s : WorkState) : Quiet s s :=
  ⟨rfl, rfl, fun _ => rfl, fun _ => .inl rfl⟩

/-- Moving one task between two unarmed places is quiet. -/
private theorem quiet_setCall (s : WorkState) (before : (s.tasks task).call.armed = false)
    (after : call.armed = false) : Quiet s (s.setCall task call) := by
  refine ⟨rfl, rfl, fun other => by simp, fun other => ?_⟩
  by_cases same : other = task
  · subst same
    exact .inr ⟨before, by simpa using after⟩
  · exact .inl (by rw [s.setCall_other task call same])

/-- The step function has no other effect than the listed moves. -/
theorem workMove_of_step (moved : workStep config s action = some (s', out)) :
    WorkMove s action out s' := by
  cases action with
  | scanPending task worker =>
    simp only [workStep] at moved
    split at moved
    · rename_i idle
      split at moved
      · cases moved
        exact .quiet (quiet_self s) (by simp)
      · split at moved
        · cases moved
          exact .quiet (quiet_self s) (by simp)
        · cases moved
          exact .quiet (quiet_setCall s (by rw [idle]; rfl) rfl) (by simp)
    · cases moved
  | claimTxn task now =>
    simp only [workStep] at moved
    split at moved
    · rename_i call
      split at moved
      · cases moved
      · rename_i parsed
        split at moved
        · rename_i absent
          cases moved
          exact .dropped call parsed absent
        · rename_i stored
          split at moved
          · cases moved
            exact .quiet (quiet_setCall s (by rw [call]; rfl) rfl) (by simp)
          · rename_i granted
            obtain ⟨claimable, rfl⟩ := (WorkUnit.claim_ok_iff _).mp granted
            cases moved
            exact .claimed call parsed stored claimable
    · cases moved
  | completeGet task batchId unitId now =>
    simp only [workStep] at moved
    split at moved
    · rename_i idle
      split at moved
      · cases moved
        exact .quiet (quiet_self s) (by simp)
      · rename_i stored
        cases moved
        exact .completeRead idle stored
    · cases moved
  | completePut task =>
    simp only [workStep] at moved
    split at moved
    · rename_i call
      cases moved
      exact .completed call
    · cases moved
  | failGet task batchId unitId message now =>
    simp only [workStep] at moved
    split at moved
    · rename_i idle
      split at moved
      · cases moved
        exact .quiet (quiet_self s) (by simp)
      · rename_i stored
        cases moved
        exact .failRead idle stored
    · cases moved
  | failPut task =>
    simp only [workStep] at moved
    split at moved
    · rename_i call
      split at moved
      · rename_i retry
        cases moved
        exact .failedRetry call retry
      · rename_i final
        cases moved
        exact .failedDead call final
    · cases moved
  | failRequeue task =>
    simp only [workStep] at moved
    split at moved
    · rename_i call
      cases moved
      exact .requeued call
    · cases moved
  | reclaimGet task batchId unitId owner now =>
    simp only [workStep] at moved
    split at moved
    · rename_i idle
      have judged : Quiet s (s.setCall task (.reclaiming (unitKey batchId unitId) owner)) :=
        quiet_setCall s (by rw [idle]; rfl) rfl
      split at moved
      · split at moved
        · cases moved
          exact .quiet judged (by simp)
        · cases moved
          exact .quiet (quiet_self s) (by simp)
      · cases moved
        exact .quiet judged (by simp)
    · cases moved
  | reclaimTxn task now =>
    simp only [workStep] at moved
    split at moved
    · rename_i call
      have skipped : Quiet s (s.setCall task .idle) := quiet_setCall s (by rw [call]; rfl) rfl
      split at moved
      · cases moved
        exact .quiet skipped (by simp)
      · rename_i stored
        split at moved
        · rename_i orphaned
          cases moved
          exact .reclaimed call stored orphaned.1 orphaned.2
        · cases moved
          exact .quiet skipped (by simp)
    · cases moved
  | createStart task work =>
    simp only [workStep] at moved
    split at moved
    · rename_i idle
      cases moved
      exact .quiet (quiet_setCall s (by rw [idle]; rfl) rfl) (by simp)
    · cases moved
  | createChunk task now =>
    simp only [workStep] at moved
    split at moved
    · rename_i call
      split at moved
      · cases moved
        exact .quiet (quiet_setCall s (by rw [call]; rfl) rfl) (by simp)
      · split at moved
        · cases moved
        · cases moved
          exact .created call _ _
    · cases moved
  | heartbeat podId now =>
    simp only [workStep, Option.some.injEq, Prod.mk.injEq] at moved
    obtain ⟨rfl, rfl⟩ := moved
    exact .quiet ⟨rfl, rfl, fun _ => rfl, fun _ => .inl rfl⟩ (by simp)

/-- A fact about what calls carry, kept by every move that changes a call. -/
theorem calls_of_move {P : Call → Prop} (unarmed : ∀ call, call.armed = false → P call)
    (completing : ∀ key unit now, P (.completing key (WorkUnit.complete unit now)))
    (failing : ∀ key batchId unit message now,
      P (.failing key batchId (WorkUnit.fail unit message now)))
    (requeueing : ∀ key batchId, P (.requeueing key batchId))
    (before : ∀ task, P (s.tasks task).call) (moved : WorkMove s action out s') :
    ∀ task, P (s'.tasks task).call := by
  have one : ∀ (t : WorkState) task next, P next.call → t.tasks = s.tasks →
      ∀ other, P ((t.setTask task next).tasks other).call := by
    intro t task next good same other
    by_cases here : other = task
    · rw [here, t.setTask_self]
      exact good
    · rw [t.setTask_other _ _ here, same]
      exact before other
  cases moved with
  | quiet still _ =>
    intro task
    rcases still.call task with same | ⟨_, after⟩
    · rw [same]
      exact before task
    · exact unarmed _ after
  | dropped => exact one _ _ _ (unarmed .idle rfl) rfl
  | claimed => exact one _ _ _ (unarmed .idle rfl) rfl
  | completeRead => exact one _ _ _ (completing _ _ _) rfl
  | completed => exact one _ _ _ (unarmed .idle rfl) rfl
  | failRead => exact one _ _ _ (failing _ _ _ _ _) rfl
  | failedRetry => exact one _ _ _ (requeueing _ _) rfl
  | failedDead => exact one _ _ _ (unarmed .idle rfl) rfl
  | requeued => exact one _ _ _ (unarmed .idle rfl) rfl
  | reclaimed => exact one _ _ _ (unarmed .idle rfl) rfl
  | created _ _ rest => exact one _ _ _ (unarmed (.creating rest) rfl) rfl

/-- A step moves no task but its own. -/
theorem step_keeps_task (moved : workStep config s action = some (s', out))
    (different : action.task ≠ some task) : s'.tasks task = s.tasks task := by
  cases action <;> simp only [WorkAction.task, ne_eq, Option.some.injEq, reduceCtorEq,
    not_false_eq_true] at different <;> simp only [workStep] at moved <;>
    (repeat' split at moved) <;> cases moved <;>
    first
    | rfl
    | exact WorkState.setCall_other _ _ _ (Ne.symm different)
    | exact WorkState.setTask_other _ _ _ (Ne.symm different)

/-- A task that takes no step stays where it was. -/
theorem run_keeps_task (run : Run (workQueue config) start history s)
    (still : ∀ e ∈ history, e.act.task ≠ some task) : s.tasks task = start.tasks task := by
  induction run with
  | start => rfl
  | next _ moved ih =>
    have before := ih fun e member => still e (List.mem_cons_of_mem _ member)
    exact (step_keeps_task moved (still _ List.mem_cons_self)).trans before

end Roboflow.Batch
