import Roboflow.Batch.WorkQueue

/-! The lifecycle of stored work units when the reaper runs beside the workers.
`complete_work_unit` and `fail_work_unit` write what they read, changed, without
looking at the record again, so the lifecycle is kept exactly as long as no claim
is taken away between a worker's claim and its last put. -/
namespace Roboflow.Batch
open Library

/-- Workers that settle their own claims, and the reaper; nothing is created. -/
def WorkersAndReaper (s : WorkState) (action : WorkAction) : Prop :=
  OwnClaims s action ∧ ¬ action.isCreate

instance (s : WorkState) (action : WorkAction) : Decidable (WorkersAndReaper s action) :=
  inferInstanceAs (Decidable (_ ∧ _))

/-- The unit the next put of this step's task replaces. -/
def putTarget (s : WorkState) : WorkAction → Option (Nat × String)
  | .completePut task =>
    match (s.tasks task).call with
    | .completing key _ => some (task, key)
    | _ => none
  | .failPut task =>
    match (s.tasks task).call with
    | .failing key _ _ => some (task, key)
    | _ => none
  | _ => none

/-- The stored unit is still the one the task claimed: processing, under its
worker, on the attempt the claim started. -/
def ClaimCurrent (s : WorkState) (task : Nat) (key : String) : Bool :=
  (s.tasks task).claim.any fun claim => claim.key = key ∧
    (s.units.get key).any fun unit => unit.status = .processing ∧
      unit.owner = some claim.worker ∧ unit.attempts = claim.attempt

/-- A put by a worker whose claim the reaper or another worker has taken over. -/
def LatePut (s : WorkState) (action : WorkAction) (key : String) : Prop :=
  ∃ task, putTarget s action = some (task, key) ∧ ClaimCurrent s task key = false

/-- Every put still finds the claim it settles. -/
def PutsOnTime (s : WorkState) (action : WorkAction) : Prop :=
  WorkersAndReaper s action ∧
    (putTarget s action).all (fun target => ClaimCurrent s target.1 target.2) = true

instance (s : WorkState) (action : WorkAction) : Decidable (PutsOnTime s action) :=
  inferInstanceAs (Decidable (_ ∧ _))

/-- What one step may do to a stored unit. -/
def LawfulChange (before after : WorkUnit) : Prop :=
  before.status.canTransitionTo after.status = true ∧
    (before.status = .complete ∨ before.status = .dead → after = before)

/-- A step under which every stored unit changes lawfully, and late puts change
nothing. -/
def LawfulStep (e : Transition WorkState WorkAction WorkOut) : Prop :=
  ∀ key before, e.pre.units.get key = some before →
    ∃ after, e.post.units.get key = some after ∧ LawfulChange before after ∧
      (LatePut e.pre e.act key → after = before)

/-! ### One step -/

theorem lawfulChange_self (unit : WorkUnit) : LawfulChange unit unit :=
  ⟨by simp [WorkUnitStatus.canTransitionTo], fun _ => rfl⟩

/-- A unit that is not final may move along the table. -/
theorem lawfulChange_of_live {before after : WorkUnit} (live : before.status.isTerminal = false)
    (legal : before.status.canTransitionTo after.status = true) : LawfulChange before after := by
  refine ⟨legal, fun final => ?_⟩
  rcases final with status | status <;> simp [status, WorkUnitStatus.isTerminal] at live

/-- What a call still has to write is an outcome a processing unit may have. -/
def Call.WritesOutcome : Call → Prop
  | .completing _ record | .failing _ _ record =>
    WorkUnitStatus.canTransitionTo .processing record.status = true
  | _ => True

/-- Every record in flight is such an outcome. -/
def OutcomesInFlight (s : WorkState) : Prop := ∀ task, (s.tasks task).call.WritesOutcome

theorem writesOutcome_of_unarmed {call : Call} (unarmed : call.armed = false) :
    call.WritesOutcome := by
  cases call <;> simp_all [Call.armed, Call.WritesOutcome]

/-- A step that replaces one unit only has that unit to account for. -/
theorem lawfulStep_of_put {e : Transition WorkState WorkAction WorkOut}
    (units : e.post.units = e.pre.units.put written record)
    (lawful : ∀ before, e.pre.units.get written = some before → LawfulChange before record)
    (onTime : ∀ key, ¬ LatePut e.pre e.act key) : LawfulStep e := by
  intro key before stored
  rw [units, Kv.get_put]
  split
  · rename_i here
    subst here
    exact ⟨record, rfl, lawful before stored, fun late => absurd late (onTime key)⟩
  · exact ⟨before, stored, lawfulChange_self before, fun _ => rfl⟩

theorem lawfulStep_of_same {e : Transition WorkState WorkAction WorkOut}
    (units : e.post.units = e.pre.units) : LawfulStep e := by
  intro key before stored
  exact ⟨before, by rw [units]; exact stored, lawfulChange_self before, fun _ => rfl⟩

/-- On time, the put replaces a processing unit. -/
theorem lawfulChange_of_onTime {s : WorkState} (task : Nat) (onTime : PutsOnTime s action)
    (target : putTarget s action = some (task, key))
    (outcome : WorkUnitStatus.canTransitionTo .processing record.status = true)
    (stored : s.units.get key = some before) : LawfulChange before record := by
  have current : ClaimCurrent s task key = true := by
    have all := onTime.2
    rw [target] at all
    exact all
  obtain ⟨claim, _, held⟩ := (Option.any_eq_true _ _).mp current
  have processing : before.status = .processing := by
    simp [stored] at held
    exact held.2.1
  apply lawfulChange_of_live
  · simp [processing, WorkUnitStatus.isTerminal]
  · rw [processing]
    exact outcome

theorem not_latePut_of_onTime (onTime : PutsOnTime s action) (key : String) :
    ¬ LatePut s action key := by
  rintro ⟨task, target, late⟩
  have all := onTime.2
  rw [target] at all
  simp [late] at all

/-- Every move on time is lawful. -/
theorem lawfulStep_of_move (outcomes : OutcomesInFlight s)
    (onTime : PutsOnTime s action) (moved : WorkMove s action out s') :
    LawfulStep ⟨s, action, out, s'⟩ := by
  have notLate := not_latePut_of_onTime onTime
  cases moved with
  | quiet still _ => exact lawfulStep_of_same still.units
  | dropped _ _ _ => exact lawfulStep_of_same rfl
  | @claimed task worker pendingKey batchId unitId found now call parsed stored claimable =>
    refine lawfulStep_of_put rfl (fun before present => ?_) notLate
    obtain rfl : found = before := Option.some.inj (stored.symm.trans present)
    apply lawfulChange_of_live
    · rcases (found.isClaimable_iff.mp claimable).1 with status | status <;>
        simp [status, WorkUnitStatus.isTerminal]
    · exact WorkUnit.claim_legal claimable
  | completeRead _ _ => exact lawfulStep_of_same rfl
  | @completed task written record call =>
    have outcome := outcomes task
    rw [call] at outcome
    refine lawfulStep_of_put rfl (fun before present => ?_) notLate
    exact lawfulChange_of_onTime task onTime (by simp [putTarget, call]) outcome present
  | failRead _ _ => exact lawfulStep_of_same rfl
  | @failedRetry task written batchId record call _ =>
    have outcome := outcomes task
    rw [call] at outcome
    refine lawfulStep_of_put rfl (fun before present => ?_) notLate
    exact lawfulChange_of_onTime task onTime (by simp [putTarget, call]) outcome present
  | @failedDead task written batchId record call _ =>
    have outcome := outcomes task
    rw [call] at outcome
    refine lawfulStep_of_put rfl (fun before present => ?_) notLate
    exact lawfulChange_of_onTime task onTime (by simp [putTarget, call]) outcome present
  | requeued _ => exact lawfulStep_of_same rfl
  | @reclaimed task written owner found now call stored processing owned =>
    refine lawfulStep_of_put rfl (fun before present => ?_) notLate
    obtain rfl : found = before := Option.some.inj (stored.symm.trans present)
    apply lawfulChange_of_live
    · simp [processing, WorkUnitStatus.isTerminal]
    · exact WorkUnit.fail_legal processing
  | created _ _ _ => simp [PutsOnTime, WorkersAndReaper, WorkAction.isCreate] at onTime

/-- The records in flight stay outcomes. -/
theorem outcomes_of_move (outcomes : OutcomesInFlight s)
    (moved : WorkMove s action out s') : OutcomesInFlight s' := by
  refine calls_of_move (fun _ => writesOutcome_of_unarmed) (fun _ _ _ => rfl) ?_ (fun _ _ => trivial)
    outcomes moved
  intro key batchId unit message now
  rcases unit.fail_status message now with ⟨status, _⟩ | ⟨status, _⟩ <;>
    simp [Call.WritesOutcome, status, WorkUnitStatus.canTransitionTo]

/-! ### Whole runs -/

/-- Over every schedule whose puts are on time, every change of a stored unit
follows the transition table, final units stay as they are, and no put replaces
what the reaper or another worker has recorded. -/
theorem unit_lifecycle {config : WorkConfig} (idle : ∀ task, start.tasks task = {})
    (run : Run ((workQueue config).under PutsOnTime) start history s) :
    ∀ e ∈ history, LawfulStep e := by
  intro e member
  obtain ⟨older, before, moved⟩ := run.recorded member
  obtain ⟨onTime, moved⟩ := (Machine.under_step _ _).mp moved
  have outcomes : OutcomesInFlight e.pre := by
    apply before.invariant
    · simp [OutcomesInFlight, idle, Call.WritesOutcome]
    · intro s action s' out outcomes moved
      exact outcomes_of_move outcomes (workMove_of_step ((Machine.under_step _ _).mp moved).2)
  exact lawfulStep_of_move outcomes onTime (workMove_of_step moved)

/-- A worker that settles its claim before the reaper comes. -/
theorem unit_lifecycle_on_time : ∃ history s,
    Run ((workQueue ⟨10, 30⟩).under PutsOnTime) oneUnit history s ∧
      (∀ e ∈ history, LawfulStep e) ∧ (s.units.get "b/u").map (·.status) = some .complete := by
  obtain ⟨history, s, run, seen⟩ := Run.of_observation
    ((workQueue ⟨10, 30⟩).under PutsOnTime) oneUnit
    [.scanPending 0 "w", .claimTxn 0 1, .completeGet 0 "b" "u" 2, .completePut 0,
      .reclaimGet 1 "b" "u" "w" (seconds 60), .reclaimTxn 1 (seconds 60)]
    (fun reached => (reached.2.units.get "b/u").map (·.status)) (some .complete) (by decide)
  exact ⟨history, s, run, unit_lifecycle (fun _ => rfl) run, seen⟩

/-- The reaper fails a unit between its worker's get and put; the put then turns
`Failed` into `Complete`. -/
theorem zombie_completes_reclaimed_unit :
    ¬ ∀ history s, Run ((workQueue ⟨10, 30⟩).under WorkersAndReaper) oneUnit history s →
      ∀ e ∈ history, LawfulStep e := by
  intro lawful
  obtain ⟨history, s, run, seen⟩ := Run.of_observation
    ((workQueue ⟨10, 30⟩).under WorkersAndReaper) oneUnit
    [.scanPending 0 "w", .claimTxn 0 1, .completeGet 0 "b" "u" 2,
      .reclaimGet 1 "b" "u" "w" (seconds 60), .reclaimTxn 1 (seconds 60), .completePut 0]
    (fun reached => reached.1.head?.map fun e =>
      ((e.pre.units.get "b/u").map (·.status), (e.post.units.get "b/u").map (·.status)))
    (some (some .failed, some .complete)) (by decide)
  cases history with
  | nil => simp at seen
  | cons e older =>
    simp only [List.head?_cons, Option.map_some, Option.some.injEq, Prod.mk.injEq,
      Option.map_eq_some_iff] at seen
    obtain ⟨⟨before, stored, failed⟩, ⟨after, written, complete⟩⟩ := seen
    obtain ⟨_, read, ⟨legal, _⟩, _⟩ := lawful _ _ run e List.mem_cons_self "b/u" before stored
    obtain rfl := Option.some.inj (written.symm.trans read)
    simp [failed, complete, WorkUnitStatus.canTransitionTo] at legal

end Roboflow.Batch
