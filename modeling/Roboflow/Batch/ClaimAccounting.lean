import Roboflow.Batch.WorkQueue

/-! What a unit's `attempts` counts. With workers that settle each claim at most
once, and no reaper, one unit has at most one holder at a time and every attempt
is one successful claim. -/
namespace Roboflow.Batch
open Library

/-- The schedules of `claim_work_unit`, `complete_work_unit` and
`fail_work_unit` by workers that only settle their own claims. -/
def WorkersOnly (s : WorkState) (action : WorkAction) : Prop :=
  OwnClaims s action ∧ ¬ action.isReclaim ∧ ¬ action.isCreate

instance (s : WorkState) (action : WorkAction) : Decidable (WorkersOnly s action) :=
  inferInstanceAs (Decidable (_ ∧ _ ∧ _))

/-- A step that claimed the unit under this key. -/
def WorkOut.isClaimOf (key : String) : WorkOut → Bool
  | .claimed taken _ => taken = key
  | _ => false

/-- The successful claims of a unit so far. -/
def claimsOf (key : String) (history : WorkHistory) : Nat :=
  history.countP fun e => e.out.isClaimOf key

/-- A unit just created: queued, never tried, and no task in the middle of a call. -/
structure Created (key : String) (unit : WorkUnit) (s : WorkState) : Prop where
  stored : s.units.get key = some unit
  queued : (s.pending.get key).isSome
  status : unit.status = .pending
  attempts : unit.attempts = 0
  idle : ∀ task, s.tasks task = {}

/-- A task about to write the unit holds it, and writes what it read settled. -/
def Task.Agrees (task : Task) (key : String) (unit : WorkUnit) : Prop :=
  match task.call with
  | .completing written record => written = key → task.holds key ∧ ∃ now, record = unit.complete now
  | .failing written _ record =>
    written = key → task.holds key ∧ ∃ message now, record = unit.fail message now
  | _ => True

/-- The stored unit, the claims made of it, and the tasks that hold it. -/
structure Accounted (key : String) (limit : Nat) (history : WorkHistory) (s : WorkState)
    (unit : WorkUnit) : Prop where
  stored : s.units.get key = some unit
  limited : unit.maxAttempts = limit
  counted : unit.attempts = claimsOf key history
  bounded : unit.attempts ≤ unit.maxAttempts
  dead : unit.status = .dead → unit.attempts = unit.maxAttempts
  held : ∀ task, (s.tasks task).holds key → unit.status = .processing
  unique : ∀ task other, (s.tasks task).holds key → (s.tasks other).holds key → task = other
  agrees : ∀ task, (s.tasks task).Agrees key unit

/-- The calls whose next step puts a unit. -/
def Call.putsUnit : Call → Bool
  | .completing .. | .failing .. => true
  | _ => false

theorem putsUnit_of_unarmed {call : Call} (unarmed : call.armed = false) : call.putsUnit = false := by
  cases call <;> simp_all [Call.armed, Call.putsUnit]

theorem agrees_of_no_put {task : Task} (noPut : task.call.putsUnit = false) :
    task.Agrees key unit := by
  unfold Task.Agrees
  split
  · rename_i call
    simp [call, Call.putsUnit] at noPut
  · rename_i call
    simp [call, Call.putsUnit] at noPut
  · trivial

/-- A task that does not hold the unit is not about to write it. -/
theorem agrees_of_not_holds {task : Task} (agrees : task.Agrees key unit)
    (free : task.holds key = false) (other : WorkUnit) : task.Agrees key other := by
  unfold Task.Agrees at agrees ⊢
  split
  · rename_i call
    simp only [call] at agrees
    intro named
    simp [free] at agrees
    exact absurd named agrees
  · rename_i call
    simp only [call] at agrees
    intro named
    simp [free] at agrees
    exact absurd named agrees
  · trivial

/-- Whoever is about to write the completed unit holds it. -/
theorem Accounted.of_completing (accounted : Accounted key limit history s unit)
    (call : (s.tasks task).call = .completing key record) :
    (s.tasks task).holds key ∧ ∃ now, record = unit.complete now := by
  have agrees := accounted.agrees task
  rw [Task.Agrees, call] at agrees
  exact agrees rfl

/-- Whoever is about to write the failed unit holds it. -/
theorem Accounted.of_failing (accounted : Accounted key limit history s unit)
    (call : (s.tasks task).call = .failing key batchId record) :
    (s.tasks task).holds key ∧ ∃ message now, record = unit.fail message now := by
  have agrees := accounted.agrees task
  rw [Task.Agrees, call] at agrees
  exact agrees rfl

/-- A held unit is not complete. -/
theorem Accounted.not_complete (accounted : Accounted key limit history s unit)
    (holds : (s.tasks task).holds key) : unit.status ≠ .complete := by
  rw [accounted.held task holds]
  simp

/-- Steps that leave the unit alone and hand nobody a claim on it. -/
theorem Accounted.unwritten (accounted : Accounted key limit history s unit)
    (kept : s'.units.get key = s.units.get key) (unclaimed : out.isClaimOf key = false)
    (holders : ∀ task, (s'.tasks task).holds key → (s.tasks task).holds key)
    (agrees : ∀ task, (s'.tasks task).Agrees key unit) :
    Accounted key limit (⟨s, action, out, s'⟩ :: history) s' unit := by
  refine ⟨kept.trans accounted.stored, accounted.limited, ?_, accounted.bounded, accounted.dead,
    fun task holds => accounted.held task (holders task holds),
    fun task other first second =>
      accounted.unique task other (holders task first) (holders other second), agrees⟩
  rw [accounted.counted, claimsOf, claimsOf, List.countP_cons]
  simp [unclaimed]

/-- Only the acting task changes, and it leaves the unit alone. -/
theorem Accounted.task_moved (accounted : Accounted key limit history s unit) (task : Nat)
    (kept : s'.units.get key = s.units.get key) (unclaimed : out.isClaimOf key = false)
    (others : ∀ other, other ≠ task → s'.tasks other = s.tasks other)
    (holder : (s'.tasks task).holds key → (s.tasks task).holds key)
    (agrees : (s'.tasks task).Agrees key unit) :
    Accounted key limit (⟨s, action, out, s'⟩ :: history) s' unit := by
  apply accounted.unwritten kept unclaimed
  · intro other
    by_cases same : other = task
    · rw [same]
      exact holder
    · rw [others other same]
      exact id
  · intro other
    by_cases same : other = task
    · rw [same]
      exact agrees
    · rw [others other same]
      exact accounted.agrees other

/-- Another unit's claim is settled. -/
theorem Accounted.settled_elsewhere (accounted : Accounted key limit history s unit)
    (elsewhere : key ≠ written) (task : Nat) (record : WorkUnit) (next : Call)
    (noPut : next.putsUnit = false) (unclaimed : out.isClaimOf key = false) :
    Accounted key limit (⟨s, action, out, s.settle task written record next⟩ :: history)
      (s.settle task written record next) unit := by
  refine accounted.task_moved task (by simp [Kv.get_put_ne _ elsewhere]) unclaimed
    (fun other => s.settle_other task written record next) ?_ ?_
  · rw [s.settle_holds_ne task written record next elsewhere]
    exact id
  · exact agrees_of_no_put (by simpa [WorkState.settle] using noPut)

/-- The holder settles its claim: nobody holds the unit afterwards. -/
theorem Accounted.settled (accounted : Accounted key limit history s unit)
    (holds : (s.tasks task).holds key) (attempts : record.attempts = unit.attempts)
    (max : record.maxAttempts = unit.maxAttempts)
    (dead : record.status = .dead → unit.attempts = unit.maxAttempts)
    (next : Call) (noPut : next.putsUnit = false) (unclaimed : out.isClaimOf key = false) :
    Accounted key limit (⟨s, action, out, s.settle task key record next⟩ :: history)
      (s.settle task key record next) record := by
  have free : ∀ other, ((s.settle task key record next).tasks other).holds key = false := by
    intro other
    by_cases same : other = task
    · rw [same]
      simp
    · rw [s.settle_other task key record next same]
      by_contra held
      exact same (accounted.unique other task (by simpa using held) holds)
  refine ⟨by simp, max.trans accounted.limited, ?_, ?_, ?_, ?_, ?_, ?_⟩
  · rw [attempts, accounted.counted, claimsOf, claimsOf, List.countP_cons]
    simp [unclaimed]
  · rw [attempts, max]
    exact accounted.bounded
  · rw [attempts, max]
    exact dead
  · intro other held
    simp [free] at held
  · intro other _ held
    simp [free] at held
  · intro other
    by_cases same : other = task
    · subst same
      exact agrees_of_no_put (by simpa [WorkState.settle] using noPut)
    · have quiet := free other
      rw [s.settle_other task key record next same] at quiet ⊢
      exact agrees_of_not_holds (accounted.agrees other) quiet record

/-- The holder fails its unit, which keeps the attempts it has used. -/
theorem Accounted.failed (accounted : Accounted key limit history s unit)
    (call : (s.tasks task).call = .failing key batchId record) (next : Call)
    (noPut : next.putsUnit = false) (unclaimed : out.isClaimOf key = false) :
    Accounted key limit (⟨s, action, out, s.settle task key record next⟩ :: history)
      (s.settle task key record next) record := by
  obtain ⟨holds, message, now, rfl⟩ := accounted.of_failing call
  refine accounted.settled holds unit.fail_attempts unit.fail_maxAttempts (fun dead => ?_) next
    noPut unclaimed
  rcases unit.fail_status message now with ⟨failed, _⟩ | ⟨_, used⟩
  · rw [failed] at dead
    cases dead
  · have bounded := accounted.bounded
    omega

/-- A claim is only granted while nobody holds the unit, and uses one attempt. -/
theorem Accounted.claimed (accounted : Accounted key limit history s unit)
    (claimable : unit.isClaimable = true) :
    Accounted key limit
      (⟨s, action, .claimed key (unit.claimedBy worker now),
        { s with
          units := s.units.put key (unit.claimedBy worker now)
          pending := s.pending.delete pendingKey }.setTask task {
            claim := some ⟨worker, key, unit.attempts + 1⟩ }⟩ :: history)
      ({ s with
          units := s.units.put key (unit.claimedBy worker now)
          pending := s.pending.delete pendingKey }.setTask task {
            claim := some ⟨worker, key, unit.attempts + 1⟩ })
      (unit.claimedBy worker now) := by
  obtain ⟨status, room⟩ := unit.isClaimable_iff.mp claimable
  have free : ∀ other, (s.tasks other).holds key = false := by
    intro other
    by_contra held
    have processing := accounted.held other (by simpa using held)
    rcases status with status | status <;> rw [processing] at status <;> cases status
  refine ⟨by simp, accounted.limited, ?_, room, ?_, ?_, ?_, ?_⟩
  · have counted := accounted.counted
    simp only [WorkUnit.claimedBy, claimsOf, List.countP_cons, WorkOut.isClaimOf] at counted ⊢
    simp [counted]
  · intro dead
    cases dead
  · intro _ _
    rfl
  · have taken : ∀ other, ((({ s with
        units := s.units.put key (unit.claimedBy worker now)
        pending := s.pending.delete pendingKey } : WorkState).setTask task {
          claim := some ⟨worker, key, unit.attempts + 1⟩ }).tasks other).holds key →
        other = task := by
      intro other held
      by_contra different
      rw [WorkState.setTask_other _ _ _ different] at held
      simp [free] at held
    intro first second holdsFirst holdsSecond
    rw [taken first holdsFirst, taken second holdsSecond]
  · intro other
    by_cases same : other = task
    · subst same
      exact agrees_of_no_put (by simp [Call.putsUnit])
    · rw [WorkState.setTask_other _ _ _ same]
      exact agrees_of_not_holds (accounted.agrees other) (free other) _

private theorem holds_of_disciplined {s : WorkState} (held : (s.tasks task).holds key = true)
    (call : Call) : ((s.setCall task call).tasks task).holds key = true := by
  simpa [Task.holds] using held

/-- One step keeps the account, and cannot touch a unit that is complete. -/
theorem Accounted.step (accounted : Accounted key limit history s unit)
    (allowed : WorkersOnly s action) (moved : WorkMove s action out s') :
    ∃ unit', Accounted key limit (⟨s, action, out, s'⟩ :: history) s' unit' ∧
      (unit.status = .complete → unit' = unit ∧ out.isClaimOf key = false) := by
  obtain ⟨own, noReaper, noScanner⟩ := allowed
  cases moved with
  | quiet still unclaimed =>
    have notClaim : out.isClaimOf key = false := by
      cases out <;> simp_all [WorkOut.isClaimOf]
    refine ⟨unit, accounted.unwritten (by rw [still.units]) notClaim ?_ ?_, fun _ => ⟨rfl, notClaim⟩⟩
    · intro task holds
      simpa [Task.holds, still.claim task] using holds
    · intro task
      rcases still.call task with same | ⟨_, unarmed⟩
      · have agrees := accounted.agrees task
        simp only [Task.Agrees, Task.holds, same, still.claim task] at agrees ⊢
        exact agrees
      · exact agrees_of_no_put (putsUnit_of_unarmed unarmed)
  | @dropped task worker pendingKey batchId unitId now call parsed absent =>
    refine ⟨unit, accounted.task_moved task rfl rfl (fun other => ?_) ?_ ?_, fun _ => ⟨rfl, rfl⟩⟩
    · exact WorkState.setCall_other _ _ _
    · simp [Task.holds]
    · exact agrees_of_no_put (by simp [Call.putsUnit])
  | @claimed task worker pendingKey batchId unitId found now call parsed stored claimable =>
    by_cases here : unitKey batchId unitId = key
    · subst here
      obtain rfl : found = unit := by
        rw [accounted.stored] at stored
        exact (Option.some.inj stored).symm
      refine ⟨_, accounted.claimed claimable, fun complete => ?_⟩
      rcases (found.isClaimable_iff.mp claimable).1 with status | status <;>
        rw [complete] at status <;> cases status
    · have notClaim : (WorkOut.claimed (unitKey batchId unitId) (found.claimedBy worker now)).isClaimOf
          key = false := by
        simp [WorkOut.isClaimOf, here]
      refine ⟨unit, accounted.task_moved task ?_ notClaim (fun other => ?_) ?_ ?_,
        fun _ => ⟨rfl, notClaim⟩⟩
      · simp [Kv.get_put_ne _ (Ne.symm here)]
      · exact WorkState.setTask_other _ _ _
      · simp [Task.holds, here]
      · exact agrees_of_no_put (by simp [Call.putsUnit])
  | @completeRead task batchId unitId found now call stored =>
    refine ⟨unit, accounted.task_moved task rfl rfl (fun other => ?_) ?_ ?_, fun _ => ⟨rfl, rfl⟩⟩
    · exact WorkState.setCall_other _ _ _
    · simp [Task.holds]
    · simp only [Task.Agrees, WorkState.setCall_call]
      rintro rfl
      rw [accounted.stored] at stored
      exact ⟨holds_of_disciplined own _, now, by rw [Option.some.inj stored]⟩
  | @completed task written record call =>
    by_cases here : written = key
    · subst here
      obtain ⟨holds, now, rfl⟩ := accounted.of_completing call
      refine ⟨_, accounted.settled holds unit.complete_attempts unit.complete_maxAttempts
        (by simp) .idle rfl rfl, fun complete => ?_⟩
      exact absurd complete (accounted.not_complete holds)
    · exact ⟨unit, accounted.settled_elsewhere (Ne.symm here) task record _ rfl rfl,
        fun _ => ⟨rfl, rfl⟩⟩
  | @failRead task batchId unitId found message now call stored =>
    refine ⟨unit, accounted.task_moved task rfl rfl (fun other => ?_) ?_ ?_, fun _ => ⟨rfl, rfl⟩⟩
    · exact WorkState.setCall_other _ _ _
    · simp [Task.holds]
    · simp only [Task.Agrees, WorkState.setCall_call]
      rintro rfl
      rw [accounted.stored] at stored
      exact ⟨holds_of_disciplined own _, message, now, by rw [Option.some.inj stored]⟩
  | @failedRetry task written batchId record call retry =>
    by_cases here : written = key
    · subst here
      exact ⟨record, accounted.failed call _ rfl rfl, fun complete =>
        absurd complete (accounted.not_complete (accounted.of_failing call).1)⟩
    · exact ⟨unit, accounted.settled_elsewhere (Ne.symm here) task record _ rfl rfl,
        fun _ => ⟨rfl, rfl⟩⟩
  | @failedDead task written batchId record call final =>
    by_cases here : written = key
    · subst here
      exact ⟨record, accounted.failed call _ rfl rfl, fun complete =>
        absurd complete (accounted.not_complete (accounted.of_failing call).1)⟩
    · exact ⟨unit, accounted.settled_elsewhere (Ne.symm here) task record _ rfl rfl,
        fun _ => ⟨rfl, rfl⟩⟩
  | @requeued task written batchId call =>
    refine ⟨unit, accounted.task_moved task rfl rfl (fun other => ?_) ?_ ?_, fun _ => ⟨rfl, rfl⟩⟩
    · exact WorkState.setCall_other _ _ _
    · simp [Task.holds]
    · exact agrees_of_no_put (by simp [Call.putsUnit])
  | reclaimed call stored processing owned => simp [WorkAction.isReclaim] at noReaper
  | created call chunk rest => simp [WorkAction.isCreate] at noScanner

theorem Created.accounted (created : Created key unit start) :
    Accounted key unit.maxAttempts [] start unit where
  stored := created.stored
  limited := rfl
  counted := created.attempts
  bounded := by rw [created.attempts]; exact Nat.zero_le _
  dead := by simp [created.status]
  held := by simp [created.idle, Task.holds]
  unique := by simp [created.idle, Task.holds]
  agrees := by simp [created.idle, Task.Agrees]

variable {config : WorkConfig}

/-- Every state a schedule of workers reaches is accounted for. -/
theorem accounted_of_run (created : Created key unit₀ start)
    (run : Run ((workQueue config).under WorkersOnly) start history s) :
    ∃ unit, Accounted key unit₀.maxAttempts history s unit := by
  induction run with
  | start => exact ⟨unit₀, created.accounted⟩
  | next _ moved ih =>
    obtain ⟨unit, accounted⟩ := ih
    obtain ⟨allowed, moved⟩ := (Machine.under_step _ _).mp moved
    obtain ⟨unit', accounted', _⟩ := accounted.step allowed (workMove_of_step moved)
    exact ⟨unit', accounted'⟩

/-- Once complete, a unit is never claimed again. -/
theorem never_claimed_after_complete (accounted : Accounted key limit history s unit)
    (complete : unit.status = .complete)
    (run : Run ((workQueue config).under WorkersOnly) s later final) :
    Accounted key limit (later ++ history) final unit ∧
      ∀ e ∈ later, e.out.isClaimOf key = false := by
  induction run with
  | start => exact ⟨accounted, by simp⟩
  | next _ moved ih =>
    obtain ⟨accounted, unclaimed⟩ := ih
    obtain ⟨allowed, moved⟩ := (Machine.under_step _ _).mp moved
    obtain ⟨unit', accounted', final⟩ := accounted.step allowed (workMove_of_step moved)
    obtain ⟨rfl, notClaim⟩ := final complete
    refine ⟨accounted', fun e member => ?_⟩
    rcases List.mem_cons.mp member with rfl | older
    · exact notClaim
    · exact unclaimed e older

/-- The account of one unit over every schedule of its workers: attempts are
exactly the successful claims and stay within the limit, at most one task holds
the unit, a dead unit used every attempt, and a complete one is never claimed
again. -/
theorem claim_accounting (created : Created key unit₀ start)
    (run : Run ((workQueue config).under WorkersOnly) start history s) :
    ∃ unit, s.units.get key = some unit ∧
      unit.attempts = claimsOf key history ∧
      unit.attempts ≤ unit.maxAttempts ∧ unit.maxAttempts = unit₀.maxAttempts ∧
      (∀ task other, (s.tasks task).holds key → (s.tasks other).holds key → task = other) ∧
      (unit.status = .dead → unit.attempts = unit.maxAttempts) ∧
      (unit.status = .complete → ∀ later final,
        Run ((workQueue config).under WorkersOnly) s later final →
          ∀ e ∈ later, ∀ claimed, e.out ≠ .claimed key claimed) := by
  obtain ⟨unit, accounted⟩ := accounted_of_run created run
  refine ⟨unit, accounted.stored, accounted.counted, accounted.bounded, accounted.limited,
    accounted.unique, accounted.dead, ?_⟩
  intro complete later final after e member claimed claims
  have notClaim := (never_claimed_after_complete accounted complete after).2 e member
  simp [claims, WorkOut.isClaimOf] at notClaim

theorem oneUnit_created : Created "b/u" (.withId "u" "b" [] "out" "cfg" 0) oneUnit where
  stored := by simp [oneUnit]
  queued := by simp [oneUnit]
  status := rfl
  attempts := rfl
  idle := fun _ => rfl

/-- One worker fails the unit, a second claims it again and completes it. -/
theorem claim_accounting_after_retry : ∃ history s,
    Run ((workQueue ⟨10, 30⟩).under WorkersOnly) oneUnit history s ∧
      ∃ unit, s.units.get "b/u" = some unit ∧ unit.status = .complete ∧
        unit.attempts = claimsOf "b/u" history ∧ claimsOf "b/u" history = 2 := by
  obtain ⟨history, s, run, seen⟩ := Run.of_observation
    ((workQueue ⟨10, 30⟩).under WorkersOnly) oneUnit
    [.scanPending 0 "w0", .claimTxn 0 1, .failGet 0 "b" "u" "lost" 2, .failPut 0, .failRequeue 0,
      .scanPending 1 "w1", .claimTxn 1 3, .completeGet 1 "b" "u" 4, .completePut 1]
    (fun reached => (claimsOf "b/u" reached.1, (reached.2.units.get "b/u").map WorkUnit.status))
    (2, some .complete) (by decide)
  simp only [Prod.mk.injEq] at seen
  obtain ⟨unit, stored, counted, _⟩ := claim_accounting oneUnit_created run
  rw [stored] at seen
  exact ⟨history, s, run, unit, stored, by simpa using seen.2, counted, seen.1⟩

end Roboflow.Batch
