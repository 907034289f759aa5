import Roboflow.Worker.Coordinator

/-! The main loop of a worker, `run_main_loop` of `worker/coordinator.rs`, left alone with a queue. A
claim takes the first entry; a unit that fails goes back to the queue until its attempts are used up.
So the entries are worked off in a bounded number of turns, whatever the processing answers, unless
one of them names a unit that cannot be claimed: such an entry is never removed, and once it is the
first no unit behind it is claimed again. -/
namespace Roboflow.Worker
open Library Batch

/-- What one turn of the loop meets. -/
structure Turn where
  met : Met
  now : Time
  /-- The error of `claim_work`. -/
  claimError : Option TikvError
  /-- `wait_with_shutdown` hears the shutdown. -/
  shutdownReceived : Bool

inductive TurnEnd where
  | goesOn
  /-- The loop returns `Ok(())`. -/
  | stops
  | fails (error : TikvError)

namespace Coordinator

/-- One turn of `run_main_loop`. -/
def turn (maxConcurrentJobs : Nat) (worker : Coordinator) (turn : Turn) : Coordinator × TurnEnd :=
  let waited := if turn.shutdownReceived then TurnEnd.stops else TurnEnd.goesOn
  if worker.metrics.activeJobs.toNat < maxConcurrentJobs then
    match turn.claimError with
    | some error => (worker, .fails error)
    | none =>
      match worker.claimWork turn.now with
      | (claimed, some unit) =>
        match claimed.processWorkUnit turn.met unit turn.now with
        | (after, .ok true) => (after, .stops)
        | (after, .ok false) => (after, .goesOn)
        | (after, .error error) => (after, .fails error)
      | (claimed, none) => (claimed, waited)
  else (worker, waited)

/-- The loop over the given turns; `none` while it has not returned. -/
def runMainLoop (maxConcurrentJobs : Nat) : List Turn → Coordinator → Coordinator × Option (Except TikvError Unit)
  | [], worker => (worker, none)
  | next :: turns, worker =>
    match worker.turn maxConcurrentJobs next with
    | (after, .goesOn) => runMainLoop maxConcurrentJobs turns after
    | (after, .stops) => (after, some (.ok ()))
    | (after, .fails error) => (after, some (.error error))

end Coordinator

/-! ### A worker left alone -/

/-- Nobody stops the worker, no call fails, and the processing ends one way or the other. -/
structure Turn.Calm (turn : Turn) : Prop where
  quiet : turn.met.Quiet
  claims : turn.claimError = none
  goesOn : turn.shutdownReceived = false
  requested : turn.met.shutdownRequested = false
  slot : turn.met.slotClosed = false
  processed : match turn.met.processed with
    | .ok (.success _ _) | .error _ => True
    | .ok (.failed error) => Coordinator.mentionsShutdown error = false
    | .ok .cancelled => False

/-- Units are stored under their own ids, and the entries of the queue are keys that were built. -/
structure Filed (worker : Coordinator) : Prop where
  units : ∀ key unit, worker.units.get key = some unit → key = unitKey unit.batchId unit.id
  queue : ∀ entry ∈ worker.pending.entries, ∃ batchId unitId,
    entry.1 = unitKey batchId unitId ∧ '/' ∉ batchId.toList ∧ batchId ≠ ""

def Queued (worker : Coordinator) (key : String) : Prop := (worker.pending.get key).isSome

instance (worker : Coordinator) (key : String) : Decidable (Queued worker key) :=
  inferInstanceAs (Decidable (_ = true))

/-- Every entry names a unit that can be claimed, or none at all. -/
def AllClaimable (worker : Coordinator) : Prop :=
  ∀ key unit, Queued worker key → worker.units.get key = some unit → unit.isClaimable = true

/-- The turns an entry may take: one for each attempt, and one more. -/
def attemptsLeft (units : Kv String WorkUnit) (key : String) : Nat :=
  match units.get key with
  | none => 1
  | some unit => 1 + (unit.maxAttempts - unit.attempts)

def workLeft (worker : Coordinator) : Nat :=
  (worker.pending.entries.map fun entry => attemptsLeft worker.units entry.1).sum

/-- What the counters say of the units in work: those claimed, less those completed and failed. -/
def balance (metrics : WorkerMetrics) : UInt64 × UInt64 :=
  (metrics.activeJobs, metrics.jobsClaimed - metrics.jobsCompleted - metrics.jobsFailed)

/-- What a turn can do. -/
inductive TurnMove (worker : Coordinator) : Coordinator → Prop where
  | rests (empty : worker.pending.entries = []) : TurnMove worker worker
  | stuck (first : worker.pending.entries = (key, value) :: rest) (stored : worker.units.get key = some unit)
      (refused : unit.isClaimable = false) : TurnMove worker worker
  | cleans (first : worker.pending.entries = (key, value) :: rest) (missing : worker.units.get key = none) :
      TurnMove worker { worker with pending := worker.pending.delete key }
  | settles {key value : String} {rest : List (String × String)} {unit after : WorkUnit}
      {metrics : WorkerMetrics} (first : worker.pending.entries = (key, value) :: rest)
      (stored : worker.units.get key = some unit) (claimable : unit.isClaimable = true)
      (ended : after.status = .complete ∨ after.status = .dead)
      (ids : unitKey after.batchId after.id = key) (balanced : balance metrics = balance worker.metrics) :
      TurnMove worker ⟨worker.podId, metrics, worker.units.put key after, worker.pending.delete key⟩
  | retries {key value : String} {rest : List (String × String)} {unit after : WorkUnit}
      {metrics : WorkerMetrics} (first : worker.pending.entries = (key, value) :: rest)
      (stored : worker.units.get key = some unit) (claimable : unit.isClaimable = true)
      (again : after.isClaimable = true)
      (used : after.maxAttempts = unit.maxAttempts ∧ after.attempts = unit.attempts + 1)
      (ids : unitKey after.batchId after.id = key) (balanced : balance metrics = balance worker.metrics) :
      TurnMove worker ⟨worker.podId, metrics, worker.units.put key after,
        (worker.pending.delete key).put key after.batchId⟩

section
variable {maxConcurrentJobs : Nat} {worker after : Coordinator} {turn : Turn}

theorem first_scanned (first : worker.pending.entries = (key, value) :: rest) :
    worker.pending.scan (fun _ => true) 1 = [(key, value)] := by
  simp [Kv.scan, first]

/-- The claim of the first entry. -/
theorem claimWork_first (filed : Filed worker) (first : worker.pending.entries = (key, value) :: rest)
    (now : Time) : worker.claimWork now =
      match worker.units.get key with
      | none => ({ worker with pending := worker.pending.delete key }, none)
      | some unit =>
        if unit.isClaimable then
          (⟨worker.podId, worker.metrics.incJobsClaimed.incActiveJobs,
            worker.units.put key (unit.claimedBy worker.podId now), worker.pending.delete key⟩,
            some (unit.claimedBy worker.podId now))
        else (worker, none) := by
  obtain ⟨batchId, unitId, built, free, nonempty⟩ := filed.queue (key, value) (first ▸ List.mem_cons_self)
  have parsed := parsePendingKey_unitKey free nonempty unitId
  rw [← built] at parsed
  have same : unitKey batchId unitId = key := built.symm
  rw [Coordinator.claimWork, Coordinator.claimWorkUnit, first_scanned first]
  simp only [parsed, same]
  cases stored : worker.units.get key with
  | none => rfl
  | some unit =>
    cases claimable : unit.isClaimable with
    | true =>
      have claims : unit.claim worker.podId now = .ok (unit.claimedBy worker.podId now) :=
        (WorkUnit.claim_ok_iff unit).mpr ⟨claimable, rfl⟩
      simp only [claims, claimable, if_true]
    | false =>
      have refuses : unit.claim worker.podId now = .error (.notClaimable unit.id unit.status) := by
        simp [WorkUnit.claim, claimable]
      simp only [refuses, claimable, Bool.false_eq_true, if_false]

/-- A put hides the one before it. -/
theorem put_again (units : Kv String WorkUnit) (key : String) (first second : WorkUnit) :
    (units.put key first).put key second = units.put key second := by
  refine Kv.ext_get fun other => ?_
  rw [Kv.get_put, Kv.get_put, Kv.get_put]
  split <;> rfl

/-- With a quiet store, completing a stored unit puts it and lowers the gauge. -/
theorem completeWork_quiet {met : Met} (quiet : met.Quiet) {unit : WorkUnit}
    (stored : worker.units.get (unitKey unit.batchId unit.id) = some unit) (now : Time) :
    worker.completeWork met unit.batchId unit.id now =
      ({ worker with
          units := worker.units.put (unitKey unit.batchId unit.id) (unit.complete now)
          metrics := worker.metrics.incJobsCompleted.decActiveJobs }, .ok ()) := by
  simp [Coordinator.completeWork, Coordinator.completeWorkUnit, Coordinator.updateUnit, quiet.alone,
    quiet.aloneAtPut, quiet.reads, quiet.writes, stored, Coordinator.settled]

/-- Failing it puts it, and queues it again if it has attempts left. -/
theorem failWork_quiet {met : Met} (quiet : met.Quiet) {unit : WorkUnit}
    (stored : worker.units.get (unitKey unit.batchId unit.id) = some unit) (error : String) (now : Time) :
    worker.failWork met unit.batchId unit.id error now =
      ({ worker with
          units := worker.units.put (unitKey unit.batchId unit.id) (unit.fail error now)
          pending := if (unit.fail error now).status = .failed
            then worker.pending.put (unitKey unit.batchId unit.id) unit.batchId else worker.pending
          metrics := worker.metrics.incJobsFailed.decActiveJobs }, .ok ()) := by
  by_cases again : (unit.fail error now).status = .failed <;>
    simp [Coordinator.failWork, Coordinator.failWorkUnit, Coordinator.updateUnit, quiet.alone,
      quiet.aloneAtPut, quiet.reads, quiet.writes, quiet.requeues, stored, again, Coordinator.settled]

/-- Processing ends in one of the two. -/
theorem processWorkUnit_calm (calm : turn.Calm) (unit : WorkUnit) :
    worker.processWorkUnit turn.met unit turn.now =
        Coordinator.finish (worker.completeWork turn.met unit.batchId unit.id turn.now) ∨
      ∃ error, worker.processWorkUnit turn.met unit turn.now =
        Coordinator.finish (worker.failWork turn.met unit.batchId unit.id error turn.now) := by
  have processed := calm.processed
  simp only [Coordinator.processWorkUnit, calm.requested, calm.slot, Bool.false_eq_true, if_false]
  cases answer : turn.met.processed with
  | error error => exact .inr ⟨_, rfl⟩
  | ok result =>
    rw [answer] at processed
    cases result with
    | success episodeIndex frameCount => exact .inl rfl
    | failed error =>
      have unmentioned : Coordinator.mentionsShutdown error = false := processed
      refine .inr ⟨error, ?_⟩
      simp [Coordinator.handleExecutionResult, unmentioned]
    | cancelled => exact absurd processed id

theorem balance_completed (metrics : WorkerMetrics) :
    balance metrics.incJobsClaimed.incActiveJobs.incJobsCompleted.decActiveJobs = balance metrics := by
  simp only [balance, WorkerMetrics.incJobsClaimed, WorkerMetrics.incActiveJobs,
    WorkerMetrics.incJobsCompleted, WorkerMetrics.decActiveJobs, Prod.mk.injEq]
  constructor <;> grind

theorem balance_failed (metrics : WorkerMetrics) :
    balance metrics.incJobsClaimed.incActiveJobs.incJobsFailed.decActiveJobs = balance metrics := by
  simp only [balance, WorkerMetrics.incJobsClaimed, WorkerMetrics.incActiveJobs,
    WorkerMetrics.incJobsFailed, WorkerMetrics.decActiveJobs, Prod.mk.injEq]
  constructor <;> grind

/-- A calm turn of a worker with a free place. -/
theorem turn_moves (calm : turn.Calm) (filed : Filed worker)
    (free : worker.metrics.activeJobs.toNat < maxConcurrentJobs) :
    ∃ after, worker.turn maxConcurrentJobs turn = (after, .goesOn) ∧ TurnMove worker after := by
  rw [Coordinator.turn, if_pos free]
  simp only [calm.claims, calm.goesOn, Bool.false_eq_true, if_false]
  cases queue : worker.pending.entries with
  | nil =>
    refine ⟨worker, ?_, .rests queue⟩
    simp [Coordinator.claimWork, Coordinator.claimWorkUnit, Kv.scan, queue]
  | cons entry rest =>
    obtain ⟨key, value⟩ := entry
    rw [claimWork_first filed queue]
    cases stored : worker.units.get key with
    | none => exact ⟨_, rfl, .cleans queue stored⟩
    | some unit =>
      cases claimable : unit.isClaimable with
      | false => exact ⟨worker, by simp [claimable], .stuck queue stored claimable⟩
      | true =>
        have built : unitKey unit.batchId unit.id = key := (filed.units key unit stored).symm
        let claimed := unit.claimedBy worker.podId turn.now
        let working : Coordinator := ⟨worker.podId, worker.metrics.incJobsClaimed.incActiveJobs,
          worker.units.put key claimed, worker.pending.delete key⟩
        obtain ⟨after, processed, move⟩ : ∃ after,
            working.processWorkUnit turn.met claimed turn.now = (after, .ok false) ∧ TurnMove worker after := by
          have ids : unitKey claimed.batchId claimed.id = key := built
          have held : working.units.get (unitKey claimed.batchId claimed.id) = some claimed := by
            rw [ids]
            exact Kv.get_put_self _ _ _
          rcases processWorkUnit_calm calm claimed with completes | ⟨error, fails⟩
          · rw [completes, completeWork_quiet calm.quiet held, ids]
            refine ⟨_, rfl, ?_⟩
            rw [put_again]
            exact .settles queue stored claimable (.inl rfl) ids (balance_completed _)
          · rw [fails, failWork_quiet calm.quiet held, ids]
            refine ⟨_, rfl, ?_⟩
            rw [put_again]
            by_cases spent : claimed.maxAttempts ≤ claimed.attempts
            · have dead : (claimed.fail error turn.now).status = .dead := by simp [WorkUnit.fail, spent]
              simp only [dead, reduceCtorEq, if_false]
              exact .settles queue stored claimable (.inr dead) ids (balance_failed _)
            · have failed : (claimed.fail error turn.now).status = .failed := by simp [WorkUnit.fail, spent]
              have again : (claimed.fail error turn.now).isClaimable = true := by
                have room : claimed.attempts < claimed.maxAttempts := by omega
                rw [WorkUnit.isClaimable, failed]
                exact decide_eq_true room
              simp only [failed, if_true]
              exact .retries queue stored claimable again ⟨rfl, rfl⟩ ids (balance_failed _)
        refine ⟨after, ?_, move⟩
        simp only [claimable, if_true]
        change (match working.processWorkUnit turn.met claimed turn.now with
          | (after, .ok true) => (after, TurnEnd.stops)
          | (after, .ok false) => (after, .goesOn)
          | (after, .error error) => (after, .fails error)) = (after, .goesOn)
        rw [processed]

/-! ### What a turn keeps -/

theorem TurnMove.filed (filed : Filed worker) (move : TurnMove worker after) : Filed after := by
  have putUnit : ∀ key unit, unitKey unit.batchId unit.id = key → ∀ other found,
      (worker.units.put key unit).get other = some found → other = unitKey found.batchId found.id := by
    intro key unit ids other found stored
    rw [Kv.get_put] at stored
    split at stored
    · rename_i same
      cases stored
      exact same.trans ids.symm
    · exact filed.units other found stored
  have keptKeys : ∀ key entry, entry ∈ (worker.pending.delete key).entries → entry ∈ worker.pending.entries := by
    rintro key ⟨other, value⟩ member
    rw [Kv.mem_entries, Kv.get_delete] at member
    split at member
    · cases member
    · exact Kv.mem_entries _ |>.mpr member
  cases move with
  | rests empty | stuck first stored refused => exact filed
  | cleans first missing =>
    exact ⟨filed.units, fun entry member => filed.queue entry (keptKeys _ entry member)⟩
  | settles first stored claimable ended ids balanced =>
    exact ⟨putUnit _ _ ids, fun entry member => filed.queue entry (keptKeys _ entry member)⟩
  | retries first stored claimable again used ids balanced =>
    refine ⟨putUnit _ _ ids, ?_⟩
    rintro ⟨other, value⟩ member
    rw [Kv.mem_entries, Kv.get_put] at member
    split at member
    · rename_i same
      obtain ⟨batchId, unitId, built⟩ := filed.queue _ (first ▸ List.mem_cons_self)
      exact ⟨batchId, unitId, by rw [same]; exact built⟩
    · exact filed.queue _ (keptKeys _ _ ((Kv.mem_entries _).mpr member))

theorem TurnMove.balanced (move : TurnMove worker after) : balance after.metrics = balance worker.metrics := by
  cases move with
  | rests empty | stuck first stored refused | cleans first missing => rfl
  | settles first stored claimable ended ids balanced => exact balanced
  | retries first stored claimable again used ids balanced => exact balanced

theorem queued_first (first : worker.pending.entries = (key, value) :: rest) :
    worker.pending.get key = some value :=
  (Kv.mem_entries _).mp (first ▸ List.mem_cons_self)

/-- A turn touches the first entry and its unit only. -/
theorem TurnMove.elsewhere (move : TurnMove worker after) (key : String) :
    (after.pending.get key = worker.pending.get key ∧ after.units.get key = worker.units.get key) ∨
      ∃ value rest, worker.pending.entries = (key, value) :: rest := by
  cases move with
  | rests empty | stuck first stored refused => exact .inl ⟨rfl, rfl⟩
  | @cleans first value rest queue missing =>
    by_cases same : key = first
    · exact .inr ⟨value, rest, same ▸ queue⟩
    · exact .inl ⟨Kv.get_delete_ne _ same, rfl⟩
  | @settles first value rest unit _ metrics queue stored claimable ended ids balanced =>
    by_cases same : key = first
    · exact .inr ⟨value, rest, same ▸ queue⟩
    · exact .inl ⟨Kv.get_delete_ne _ same, Kv.get_put_ne _ same _⟩
  | @retries first value rest unit _ metrics queue stored claimable again used ids balanced =>
    by_cases same : key = first
    · exact .inr ⟨value, rest, same ▸ queue⟩
    · exact .inl ⟨by rw [Kv.get_put_ne _ same, Kv.get_delete_ne _ same], Kv.get_put_ne _ same _⟩

/-- An entry whose unit cannot be claimed is still there after any turn. -/
theorem TurnMove.blocked (move : TurnMove worker after) {key : String} {unit : WorkUnit}
    (queued : Queued worker key) (stored : worker.units.get key = some unit)
    (refused : unit.isClaimable = false) : Queued after key ∧ after.units.get key = some unit := by
  rcases move.elsewhere key with ⟨entry, same⟩ | ⟨value, rest, queue⟩
  · exact ⟨by rw [Queued, entry]; exact queued, same.trans stored⟩
  · cases move with
    | rests empty => rw [empty] at queue; cases queue
    | stuck first stored' refused' => exact ⟨queued, stored⟩
    | cleans first missing =>
      rw [first] at queue
      cases queue
      rw [missing] at stored
      cases stored
    | settles first stored' claimable ended ids balanced =>
      rw [first] at queue
      cases queue
      rw [stored'] at stored
      cases stored
      rw [claimable] at refused
      cases refused
    | retries first stored' claimable again used ids balanced =>
      rw [first] at queue
      cases queue
      rw [stored'] at stored
      cases stored
      rw [claimable] at refused
      cases refused

theorem AllClaimable.move (claimable : AllClaimable worker) (move : TurnMove worker after) :
    AllClaimable after := by
  intro key unit queued stored
  rcases move.elsewhere key with ⟨entry, same⟩ | ⟨value, rest, queue⟩
  · exact claimable key unit (by rw [Queued, ← entry]; exact queued) (same.symm.trans stored)
  · have before := queued_first queue
    cases move with
    | rests empty | stuck first stored' refused' =>
      exact claimable key unit (by rw [Queued, before]; rfl) stored
    | cleans first missing =>
      rw [first] at queue
      cases queue
      rw [Queued, Kv.get_delete, if_pos rfl] at queued
      cases queued
    | settles first stored' claims ended ids balanced =>
      rw [first] at queue
      cases queue
      rw [Queued, Kv.get_delete, if_pos rfl] at queued
      cases queued
    | retries first stored' claims again used ids balanced =>
      rw [first] at queue
      cases queue
      rw [Kv.get_put_self] at stored
      cases stored
      exact again

/-- The work behind the first entry. -/
def workBehind (worker : Coordinator) (key : String) : Nat :=
  ((worker.pending.delete key).entries.map fun entry => attemptsLeft worker.units entry.1).sum

theorem workLeft_first (first : worker.pending.entries = (key, value) :: rest) :
    workLeft worker = attemptsLeft worker.units key + workBehind worker key := by
  have parts := (worker.pending.perm_delete (queued_first first)).map fun entry =>
    attemptsLeft worker.units entry.1
  rw [workLeft, parts.sum_eq, List.map_cons, List.sum_cons, workBehind]

/-- Writing the unit of one entry leaves the attempts of the others. -/
theorem workBehind_put (worker : Coordinator) (key : String) (unit : WorkUnit) :
    ((worker.pending.delete key).entries.map fun entry => attemptsLeft (worker.units.put key unit) entry.1).sum =
      workBehind worker key := by
  refine congrArg List.sum (List.map_congr_left fun entry member => ?_)
  have different : entry.1 ≠ key := by
    rintro rfl
    have found := (Kv.mem_entries _).mp member
    rw [Kv.get_delete, if_pos rfl] at found
    cases found
  rw [attemptsLeft, attemptsLeft, Kv.get_put_ne _ different]

/-- While something is queued, a turn uses up an attempt or an entry. -/
theorem AllClaimable.workLeft_lt (claimable : AllClaimable worker) (move : TurnMove worker after)
    (nonempty : worker.pending.entries ≠ []) : workLeft after < workLeft worker := by
  cases move with
  | rests empty => exact absurd empty nonempty
  | stuck first stored refused =>
    have claims := claimable _ _ (by rw [Queued, queued_first first]; rfl) stored
    rw [refused] at claims
    cases claims
  | @cleans key value rest first missing =>
    have left : workLeft { worker with pending := worker.pending.delete key } = workBehind worker key := rfl
    rw [left, workLeft_first first, attemptsLeft, missing]
    dsimp only
    omega
  | @settles key value rest unit after metrics first stored claims ended ids balanced =>
    rw [workLeft_first first, attemptsLeft, stored, workLeft, workBehind_put]
    dsimp only
    omega
  | @retries key value rest unit after metrics first stored claims again used ids balanced =>
    have room : unit.attempts < unit.maxAttempts := by
      rw [WorkUnit.isClaimable, Bool.and_eq_true, decide_eq_true_eq] at claims
      exact claims.2
    have absent : (worker.pending.delete key).get key = none := by rw [Kv.get_delete, if_pos rfl]
    have grown := ((worker.pending.delete key).perm_put absent after.batchId).map fun entry =>
      attemptsLeft (worker.units.put key after) entry.1
    rw [workLeft_first first, workLeft, grown.sum_eq, List.map_cons, List.sum_cons, workBehind_put,
      attemptsLeft, attemptsLeft, stored, Kv.get_put_self]
    dsimp only
    omega

/-! ### What becomes of a unit -/

/-- A unit off the queue is as it was if it never was queued, and is complete or dead if it was. -/
def Worked (before after : Coordinator) (key : String) : Prop :=
  if Queued before key then
    (before.units.get key).isSome → ∃ unit, after.units.get key = some unit ∧
      (unit.status = .complete ∨ unit.status = .dead)
  else after.units.get key = before.units.get key

/-- What holds of the units while the queue is worked off. -/
structure Progress (before after : Coordinator) : Prop where
  fewer : ∀ key, Queued after key → Queued before key
  there : ∀ key, Queued after key → (before.units.get key).isSome = (after.units.get key).isSome
  worked : ∀ key, ¬Queued after key → Worked before after key

theorem Progress.refl (worker : Coordinator) : Progress worker worker where
  fewer _ queued := queued
  there _ _ := rfl
  worked key unqueued := by rw [Worked, if_neg unqueued]

theorem Progress.move {before : Coordinator} (progress : Progress before worker)
    (move : TurnMove worker after) : Progress before after := by
  -- Away from the first entry everything is as it was.
  have away : ∀ key, after.pending.get key = worker.pending.get key →
      after.units.get key = worker.units.get key →
      (Queued after key → Queued before key ∧ (before.units.get key).isSome = (after.units.get key).isSome) ∧
      (¬Queued after key → Worked before after key) := by
    intro key entry unit
    have same : Queued after key ↔ Queued worker key := by rw [Queued, entry, Queued]
    refine ⟨fun queued => ⟨progress.fewer key (same.mp queued), ?_⟩, fun unqueued => ?_⟩
    · rw [unit]
      exact progress.there key (same.mp queued)
    · have worked := progress.worked key fun queued => unqueued (same.mpr queued)
      unfold Worked at worked ⊢
      rwa [unit]
  have all : ∀ key,
      (Queued after key → Queued before key ∧ (before.units.get key).isSome = (after.units.get key).isSome) ∧
      (¬Queued after key → Worked before after key) := by
    intro key
    rcases move.elsewhere key with ⟨entry, unit⟩ | ⟨value, rest, queue⟩
    · exact away key entry unit
    · have queued : Queued worker key := by rw [Queued, queued_first queue]; rfl
      have wasQueued := progress.fewer key queued
      have wasThere := progress.there key queued
      cases move with
      | rests empty | stuck first stored refused => exact away key rfl rfl
      | cleans first missing =>
        rw [first] at queue
        cases queue
        refine ⟨fun queued => ?_, fun _ => ?_⟩
        · rw [Queued, Kv.get_delete, if_pos rfl] at queued
          cases queued
        · rw [Worked, if_pos wasQueued, wasThere, missing]
          exact fun absent => by cases absent
      | settles first stored claims ended ids balanced =>
        rw [first] at queue
        cases queue
        refine ⟨fun queued => ?_, fun _ => ?_⟩
        · rw [Queued, Kv.get_delete, if_pos rfl] at queued
          cases queued
        · rw [Worked, if_pos wasQueued]
          exact fun _ => ⟨_, Kv.get_put_self _ _ _, ended⟩
      | retries first stored claims again used ids balanced =>
        rw [first] at queue
        cases queue
        refine ⟨fun _ => ⟨wasQueued, ?_⟩, fun unqueued => ?_⟩
        · rw [wasThere, stored, Kv.get_put_self]
          rfl
        · rw [Queued, Kv.get_put_self] at unqueued
          exact absurd rfl unqueued
  exact ⟨fun key queued => ((all key).1 queued).1, fun key queued => ((all key).1 queued).2, fun key => (all key).2⟩

/-! ### The loop -/

theorem free_of_balance (balanced : balance after.metrics = balance worker.metrics)
    (free : worker.metrics.activeJobs.toNat < maxConcurrentJobs) :
    after.metrics.activeJobs.toNat < maxConcurrentJobs := by
  have same : after.metrics.activeJobs = worker.metrics.activeJobs := congrArg Prod.fst balanced
  rwa [same]

/-- The loop turn by turn. -/
theorem runMainLoop_cons (calm : turn.Calm) (filed : Filed worker)
    (free : worker.metrics.activeJobs.toNat < maxConcurrentJobs) (turns : List Turn) :
    ∃ after, TurnMove worker after ∧ Coordinator.runMainLoop maxConcurrentJobs (turn :: turns) worker =
      Coordinator.runMainLoop maxConcurrentJobs turns after := by
  obtain ⟨after, turned, move⟩ := turn_moves calm filed free
  exact ⟨after, move, by rw [Coordinator.runMainLoop, turned]⟩

theorem runMainLoop_blocked (turns : List Turn) (calm : ∀ turn ∈ turns, turn.Calm) (filed : Filed worker)
    (free : worker.metrics.activeJobs.toNat < maxConcurrentJobs) {key : String} {unit : WorkUnit}
    (queued : Queued worker key) (stored : worker.units.get key = some unit)
    (refused : unit.isClaimable = false) :
    Queued (Coordinator.runMainLoop maxConcurrentJobs turns worker).1 key := by
  induction turns generalizing worker with
  | nil => exact queued
  | cons turn turns ih =>
    obtain ⟨after, move, rest⟩ := runMainLoop_cons (calm turn List.mem_cons_self) filed free turns
    obtain ⟨queuedAfter, storedAfter⟩ := move.blocked queued stored refused
    rw [rest]
    exact ih (fun turn member => calm turn (List.mem_cons_of_mem _ member)) (move.filed filed)
      (free_of_balance move.balanced free) queuedAfter storedAfter

/-- The state a calm loop reaches, if every entry names a unit that can be claimed. -/
theorem runMainLoop_drains {before : Coordinator} (turns : List Turn) (calm : ∀ turn ∈ turns, turn.Calm)
    (filed : Filed worker) (free : worker.metrics.activeJobs.toNat < maxConcurrentJobs)
    (claimable : AllClaimable worker) (enough : workLeft worker ≤ turns.length)
    (progress : Progress before worker) :
    (Coordinator.runMainLoop maxConcurrentJobs turns worker).1.pending.entries = [] ∧
      Progress before (Coordinator.runMainLoop maxConcurrentJobs turns worker).1 := by
  induction turns generalizing worker with
  | nil =>
    refine ⟨?_, progress⟩
    change worker.pending.entries = []
    cases queue : worker.pending.entries with
    | nil => rfl
    | cons entry rest =>
      have left : workLeft worker = attemptsLeft worker.units entry.1 + workBehind worker entry.1 :=
        workLeft_first queue
      have one : 1 ≤ attemptsLeft worker.units entry.1 := by
        unfold attemptsLeft
        split <;> omega
      rw [List.length_nil] at enough
      omega
  | cons turn turns ih =>
    obtain ⟨after, move, rest⟩ := runMainLoop_cons (calm turn List.mem_cons_self) filed free turns
    rw [rest]
    refine ih (fun turn member => calm turn (List.mem_cons_of_mem _ member)) (move.filed filed)
      (free_of_balance move.balanced free) (claimable.move move) ?_ (progress.move move)
    rw [List.length_cons] at enough
    by_cases empty : worker.pending.entries = []
    · have none : workLeft worker = 0 := by simp [workLeft, empty]
      cases move with
      | rests _ => omega
      | stuck first _ _ | cleans first _ | settles first _ _ _ _ _ | retries first _ _ _ _ _ _ =>
        rw [first] at empty
        cases empty
    · have less := claimable.workLeft_lt move empty
      omega

theorem runMainLoop_goesOn (turns : List Turn) (calm : ∀ turn ∈ turns, turn.Calm) (filed : Filed worker)
    (free : worker.metrics.activeJobs.toNat < maxConcurrentJobs) :
    (Coordinator.runMainLoop maxConcurrentJobs turns worker).2.isNone ∧
      balance (Coordinator.runMainLoop maxConcurrentJobs turns worker).1.metrics = balance worker.metrics := by
  induction turns generalizing worker with
  | nil => exact ⟨rfl, rfl⟩
  | cons turn turns ih =>
    obtain ⟨after, move, rest⟩ := runMainLoop_cons (calm turn List.mem_cons_self) filed free turns
    rw [rest, ← move.balanced]
    exact ih (fun turn member => calm turn (List.mem_cons_of_mem _ member)) (move.filed filed)
      (free_of_balance move.balanced free)

end

/-- For every worker with a free place, every queue of built keys and every calm sequence of turns, one
for each attempt the queued units have left and one for each entry: the loop has not returned, and
the queue is empty if and only if every entry names a unit that can be claimed, or none. Then every
unit that was queued is complete or dead, all others are as they were, and the counters balance. -/
theorem queue_drains_iff (maxConcurrentJobs : Nat) (turns : List Turn) (worker : Coordinator)
    (calm : ∀ turn ∈ turns, turn.Calm) (filed : Filed worker)
    (free : worker.metrics.activeJobs.toNat < maxConcurrentJobs) (enough : workLeft worker ≤ turns.length) :
    (worker.runMainLoop maxConcurrentJobs turns).2.isNone ∧
      ((worker.runMainLoop maxConcurrentJobs turns).1.pending.entries = [] ↔ AllClaimable worker) ∧
      (AllClaimable worker → ∀ key, Worked worker (worker.runMainLoop maxConcurrentJobs turns).1 key) ∧
      balance (worker.runMainLoop maxConcurrentJobs turns).1.metrics = balance worker.metrics := by
  obtain ⟨goesOn, balanced⟩ := runMainLoop_goesOn turns calm filed free
  have drains := fun claimable => runMainLoop_drains turns calm filed free claimable enough (.refl worker)
  refine ⟨goesOn, ⟨fun empty => ?_, fun claimable => (drains claimable).1⟩, fun claimable key => ?_, balanced⟩
  · intro key unit queued stored
    by_contra refused
    have still := runMainLoop_blocked turns calm filed free queued stored (by simpa using refused)
    have gone : (worker.runMainLoop maxConcurrentJobs turns).1.pending.get key = none := by
      simp [Kv.get, empty]
    rw [Queued, gone] at still
    cases still
  · refine (drains claimable).2.worked key fun queued => ?_
    have gone : (worker.runMainLoop maxConcurrentJobs turns).1.pending.get key = none := by
      simp [Kv.get, (drains claimable).1]
    rw [Queued, gone] at queued
    cases queued

/-- A turn in which the processing answers this. -/
def calmTurn (processed : Except TikvError ProcessingResult) : Turn where
  met := ⟨false, false, false, processed, id, id, none, none, none⟩
  now := 7
  claimError := none
  shutdownReceived := false

/-- A worker with one queued unit, which may be tried three times. -/
def oneJob : Coordinator where
  podId := "pod"
  metrics := ⟨0, 0, 0, 0, 0⟩
  units := Kv.empty.put (unitKey "jobs:b" "u") (.withId "u" "jobs:b" [] "out" "cfg" 0)
  pending := Kv.empty.put (unitKey "jobs:b" "u") "jobs:b"

/-- The unit fails once and then succeeds. -/
theorem queue_drains_after_retry : AllClaimable oneJob ∧
    (oneJob.runMainLoop 1 [calmTurn (.error ⟨"lost"⟩), calmTurn (.ok (.success 0 10)),
      calmTurn (.ok (.success 0 10)), calmTurn (.ok (.success 0 10))]).1.pending.entries = [] := by
  have stored : oneJob.units.get (unitKey "jobs:b" "u") = some (.withId "u" "jobs:b" [] "out" "cfg" 0) :=
    Kv.get_put_self _ _ _
  have only : ∀ key unit, oneJob.units.get key = some unit → key = unitKey "jobs:b" "u" := by
    intro key unit found
    by_contra other
    rw [oneJob, Kv.get_put_ne _ other] at found
    cases found
  have claimable : AllClaimable oneJob := by
    intro key unit queued found
    rw [only key unit found, stored] at found
    cases found
    rfl
  have calm : ∀ processed, (match processed with
      | .ok (.success _ _) | .error _ => True
      | _ => False) → (calmTurn processed).Calm := by
    intro processed ends
    refine ⟨⟨rfl, rfl, rfl, rfl, rfl⟩, rfl, rfl, rfl, rfl, ?_⟩
    revert ends
    cases processed with
    | error error => exact id
    | ok result => cases result <;> simp [calmTurn]
  have drains := queue_drains_iff 1 [calmTurn (.error ⟨"lost"⟩), calmTurn (.ok (.success 0 10)),
    calmTurn (.ok (.success 0 10)), calmTurn (.ok (.success 0 10))] oneJob
    (by simp [calm]) ⟨?_, ?_⟩ (by decide) (by decide)
  · exact ⟨claimable, drains.2.1.mpr claimable⟩
  · intro key unit found
    have key' := only key unit found
    rw [key', stored] at found
    cases found
    exact key'
  · intro entry member
    refine ⟨"jobs:b", "u", ?_, by decide, by decide⟩
    rw [oneJob] at member
    simpa using congrArg Prod.fst (List.mem_singleton.mp member)

end Roboflow.Worker
