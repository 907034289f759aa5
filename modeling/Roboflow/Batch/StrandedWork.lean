import Roboflow.Batch.WorkQueue

/-! Which units the pending queue covers. A unit that may be claimed is found
through its queue entry only, so every writer of the unit has to leave an entry
behind, or still owe one. Two writers do not: the reaper gives its transaction no
pending key, and a claim that reads a pending key with a leading slash removes
the entry of one unit while it looks at another. -/
namespace Roboflow.Batch
open Library

/-- No `fail_work_unit` is between its two puts. -/
def NothingRequeueing (s : WorkState) : Prop :=
  ∀ task key batchId, (s.tasks task).call ≠ .requeueing key batchId

/-- Every claimable unit can be found through the queue. -/
def QueueCovers (s : WorkState) : Prop :=
  NothingRequeueing s → ∀ key unit, s.units.get key = some unit → unit.isClaimable = true →
    (s.pending.get key).isSome

/-- A reclaim that leaves its unit with attempts to use and no entry in the queue. -/
def StrandsUnit (s : WorkState) : WorkAction → Bool
  | .reclaimTxn task _ =>
    match (s.tasks task).call with
    | .reclaiming key owner => (s.units.get key).any fun unit =>
        unit.status = .processing ∧ unit.owner = some owner ∧
          unit.attempts < unit.maxAttempts ∧ (s.pending.get key).isNone
    | _ => false
  | _ => false

/-- A claim through the entry of a claimable unit that starts with a slash, and so
is read as the entry of another. -/
def MisreadsKey (s : WorkState) : WorkAction → Bool
  | .claimTxn task _ =>
    match (s.tasks task).call with
    | .claiming _ pendingKey => pendingKey.toList.head? = some '/' ∧
        (s.units.get pendingKey).any WorkUnit.isClaimable
    | _ => false
  | _ => false

/-- The steps that keep the queue complete. -/
def KeepsQueue (s : WorkState) (action : WorkAction) : Prop :=
  StrandsUnit s action = false ∧ MisreadsKey s action = false

instance (s : WorkState) (action : WorkAction) : Decidable (KeepsQueue s action) :=
  inferInstanceAs (Decidable (_ ∧ _))

/-! ### Pending keys -/

private theorem splitOnce_join {text : List Char} (found : splitOnce text = some (before, after)) :
    before ++ '/' :: after = text := by
  unfold splitOnce at found
  split at found
  · cases found
  · rename_i first tail rest
    have slash : first = '/' := by
      have stopped := List.head?_dropWhile_not (fun c => decide (c ≠ '/')) text
      rw [rest] at stopped
      simpa using stopped
    obtain ⟨rfl, rfl⟩ := Prod.mk.inj (Option.some.inj found)
    rw [← slash, ← rest, slash]
    exact List.takeWhile_append_dropWhile

/-- Without a leading slash a pending key names the unit stored under its own suffix. -/
theorem unitKey_of_parse (parsed : parsePendingKey key = some (batchId, unitId))
    (noSlash : key.toList.head? ≠ some '/') : unitKey batchId unitId = key := by
  obtain ⟨⟨before, after⟩, split, named⟩ := Option.map_eq_some_iff.mp parsed
  have trimmed : ('/' :: key.toList).dropWhile (fun c => decide (c = '/')) = key.toList := by
    cases text : key.toList with
    | nil => rfl
    | cons first rest =>
      have different : first ≠ '/' := by simpa [text] using noSlash
      simp [different]
  rw [trimmed] at split
  obtain ⟨rfl, rfl⟩ := Prod.mk.inj named
  apply String.toList_inj.mp
  simpa [unitKey] using splitOnce_join split

/-- A claim that keeps the queue reads the entry of a claimable unit as that unit. -/
theorem unitKey_of_entry {s : WorkState} (keeps : KeepsQueue s (.claimTxn task now))
    (call : (s.tasks task).call = .claiming worker key)
    (parsed : parsePendingKey key = some (batchId, unitId))
    (stored : s.units.get key = some unit) (claimable : unit.isClaimable = true) :
    unitKey batchId unitId = key := by
  apply unitKey_of_parse parsed
  intro slash
  have misread := keeps.2
  simp [MisreadsKey, call, slash, stored, claimable] at misread

/-! ### The invariant -/

/-- What a call still has to write does not make a unit claimable unqueued. -/
def Call.Harmless : Call → Prop
  | .completing _ record => record.isClaimable = false
  | .failing _ _ record => record.isClaimable = true → record.status = .failed
  | _ => True

/-- Every claimable unit has an entry, or some `fail_work_unit` still owes it one. -/
def QueuedOrOwed (s : WorkState) : Prop :=
  ∀ key unit, s.units.get key = some unit → unit.isClaimable = true →
    (s.pending.get key).isSome ∨ ∃ task batchId, (s.tasks task).call = .requeueing key batchId

structure Covered (s : WorkState) : Prop where
  queued : QueuedOrOwed s
  records : ∀ task, (s.tasks task).call.Harmless

theorem harmless_of_unarmed {call : Call} (unarmed : call.armed = false) : call.Harmless := by
  cases call <;> simp_all [Call.armed, Call.Harmless]

theorem complete_not_claimable (unit : WorkUnit) : (unit.complete now).isClaimable = false := by
  simp [WorkUnit.isClaimable, WorkUnitStatus.isClaimable]

/-- A failed record is claimable only as a retry. -/
theorem fail_claimable (unit : WorkUnit) (claimable : (unit.fail message now).isClaimable = true) :
    (unit.fail message now).status = .failed := by
  rcases unit.fail_status message now with ⟨failed, _⟩ | ⟨dead, _⟩
  · exact failed
  · have status := ((unit.fail message now).isClaimable_iff.mp claimable).1
    simp [dead] at status

theorem claimedBy_not_claimable (unit : WorkUnit) :
    (unit.claimedBy worker now).isClaimable = false := by
  simp [WorkUnit.isClaimable, WorkUnitStatus.isClaimable, WorkUnit.claimedBy]

/-- One task moves and still owes what it owed, and what it stores or removes is
covered afterwards. -/
theorem QueuedOrOwed.task_moved (covered : QueuedOrOwed s) (task : Nat)
    (others : ∀ other, other ≠ task → s'.tasks other = s.tasks other)
    (queued : ∀ key unit, s'.units.get key = some unit → unit.isClaimable = true →
      (s'.pending.get key).isSome ∨ (∃ batchId, (s'.tasks task).call = .requeueing key batchId) ∨
        s.units.get key = some unit ∧ ((s.pending.get key).isSome → (s'.pending.get key).isSome) ∧
          ∀ batchId, (s.tasks task).call ≠ .requeueing key batchId) :
    QueuedOrOwed s' := by
  intro key unit stored claimable
  rcases queued key unit stored claimable with present | owes | ⟨before, kept, free⟩
  · exact .inl present
  · exact .inr ⟨task, owes⟩
  · rcases covered key unit before claimable with present | ⟨other, batchId, call⟩
    · exact .inl (kept present)
    · have different : other ≠ task := by
        rintro rfl
        exact free batchId call
      exact .inr ⟨other, batchId, by rw [others other different]; exact call⟩

/-- A stored record that cannot be claimed needs no entry. -/
theorem QueuedOrOwed.stores (covered : QueuedOrOwed s) (task : Nat)
    (others : ∀ other, other ≠ task → s'.tasks other = s.tasks other)
    (units : s'.units = s.units.put written record)
    (pending : s'.pending = s.pending) (unclaimable : record.isClaimable = false)
    (free : ∀ key batchId, (s.tasks task).call ≠ .requeueing key batchId) : QueuedOrOwed s' := by
  apply covered.task_moved task others
  intro key unit present claimable
  have elsewhere : key ≠ written := by
    rintro rfl
    rw [units, Kv.get_put_self] at present
    rw [← Option.some.inj present, unclaimable] at claimable
    cases claimable
  rw [units, Kv.get_put_ne _ elsewhere] at present
  exact .inr (.inr ⟨present, by rw [pending]; exact id, free key⟩)

/-- A chunk of new units is queued by the same transaction. -/
theorem pendingPairs_keys (work : Creation) (chunk : List (ObjectMetadata × String)) (now : Time) :
    (work.pendingPairs chunk).map Prod.fst = (work.unitPairs chunk now).map Prod.fst := by
  simp [Creation.pendingPairs, Creation.unitPairs]

/-- Every step that neither strands a unit nor misreads a key keeps the cover. -/
theorem Covered.queued_step (covered : Covered s) (keeps : KeepsQueue s action)
    (moved : WorkMove s action out s') : QueuedOrOwed s' := by
  obtain ⟨covered, records⟩ := covered
  cases moved with
  | quiet still _ =>
    intro key unit stored claimable
    rw [still.units] at stored
    rw [still.pending]
    refine (covered key unit stored claimable).imp_right ?_
    rintro ⟨task, batchId, call⟩
    rcases still.call task with same | ⟨unarmed, _⟩
    · exact ⟨task, batchId, same.trans call⟩
    · simp [call, Call.armed] at unarmed
  | @dropped task worker pendingKey batchId unitId now call parsed absent =>
    refine covered.task_moved task (fun other => WorkState.setCall_other _ _ _) ?_
    intro key unit present claimable
    have elsewhere : key ≠ pendingKey := by
      rintro rfl
      have named := unitKey_of_entry keeps call parsed present claimable
      rw [named] at absent
      simp [absent] at present
    exact .inr (.inr ⟨present, by simp [Kv.get_delete_ne _ elsewhere], by simp [call]⟩)
  | @claimed task worker pendingKey batchId unitId found now call parsed stored _ =>
    refine covered.task_moved task (fun other => WorkState.setTask_other _ _ _) ?_
    intro key unit present claimable
    have notTaken : key ≠ unitKey batchId unitId := by
      rintro rfl
      simp at present
      simp [← present, claimedBy_not_claimable] at claimable
    replace present : s.units.get key = some unit := by
      simpa [Kv.get_put_ne _ notTaken] using present
    have elsewhere : key ≠ pendingKey := by
      rintro rfl
      exact notTaken (unitKey_of_entry keeps call parsed present claimable).symm
    exact .inr (.inr ⟨present, by simp [Kv.get_delete_ne _ elsewhere], by simp [call]⟩)
  | @completeRead task batchId unitId found now call stored =>
    refine covered.task_moved task (fun other => WorkState.setCall_other _ _ _) ?_
    intro key unit present _
    exact .inr (.inr ⟨present, id, by simp [call]⟩)
  | @completed task written record call =>
    have harmless := records task
    rw [call] at harmless
    exact covered.stores task (fun other => WorkState.settle_other _ _ _ _ _) rfl rfl harmless (by simp [call])
  | @failRead task batchId unitId found message now call stored =>
    refine covered.task_moved task (fun other => WorkState.setCall_other _ _ _) ?_
    intro key unit present _
    exact .inr (.inr ⟨present, id, by simp [call]⟩)
  | @failedRetry task written batchId record call retry =>
    refine covered.task_moved task (fun other => WorkState.settle_other _ _ _ _ _) ?_
    intro key unit present _
    by_cases here : key = written
    · exact .inr (.inl ⟨batchId, by simp [WorkState.settle, here]⟩)
    · exact .inr (.inr ⟨by simpa [Kv.get_put_ne _ here] using present, id, by simp [call]⟩)
  | @failedDead task written batchId record call final =>
    have harmless := records task
    rw [call] at harmless
    have unclaimable : record.isClaimable = false := by
      by_contra claimable
      exact final (harmless (by simpa using claimable))
    exact covered.stores task (fun other => WorkState.settle_other _ _ _ _ _) rfl rfl unclaimable (by simp [call])
  | @requeued task written batchId call =>
    refine covered.task_moved task (fun other => WorkState.setCall_other _ _ _) ?_
    intro key unit present _
    by_cases here : key = written
    · exact .inl (by simp [here])
    · exact .inr (.inr ⟨present, by simp [Kv.get_put_ne _ here], by simp [call, Ne.symm here]⟩)
  | @reclaimed task written owner found now call stored processing owned =>
    refine covered.task_moved task (fun other => WorkState.setCall_other _ _ _) ?_
    intro key unit present claimable
    by_cases here : key = written
    · subst here
      simp at present
      have room := (unit.isClaimable_iff.mp claimable).2
      rw [← present, found.fail_attempts, found.fail_maxAttempts] at room
      have kept := keeps.1
      simp only [StrandsUnit, call, stored, Option.any_some, decide_eq_false_iff_not] at kept
      refine .inl (Option.isSome_iff_ne_none.mpr fun missing => kept ?_)
      exact ⟨processing, owned, room, by simpa using missing⟩
    · exact .inr (.inr ⟨by simpa [Kv.get_put_ne _ here] using present, id, by simp [call]⟩)
  | @created task work now call chunk rest =>
    refine covered.task_moved task (fun other => WorkState.setCall_other _ _ _) ?_
    intro key unit present _
    by_cases written : key ∈ (work.pendingPairs chunk).map Prod.fst
    · obtain ⟨value, _, queued⟩ := s.pending.get_putAll_of_mem written
      exact .inl (by simp [queued])
    · refine .inr (.inr ⟨?_, ?_, by simp [call]⟩)
      · rw [pendingPairs_keys work chunk now] at written
        simpa [Kv.get_putAll_of_notMem written] using present
      · simp [Kv.get_putAll_of_notMem written]

theorem Covered.step (covered : Covered s) (keeps : KeepsQueue s action)
    (moved : WorkMove s action out s') : Covered s' :=
  ⟨covered.queued_step keeps moved,
    calls_of_move (fun _ => harmless_of_unarmed) (fun _ unit _ => complete_not_claimable unit)
      (fun _ _ unit _ _ => fail_claimable unit) (fun _ _ => trivial) covered.records moved⟩

theorem covered_initial : Covered .initial :=
  ⟨by simp [QueuedOrOwed, WorkState.initial], by simp [WorkState.initial, Call.Harmless]⟩

/-- In every schedule whose steps keep the queue, every claimable unit is queued. -/
theorem no_stranded_work (config : WorkConfig)
    (run : Run ((workQueue config).under KeepsQueue) .initial history s) : QueueCovers s := by
  have covered : Covered s := by
    apply run.invariant covered_initial
    intro s action s' out covered moved
    obtain ⟨keeps, moved⟩ := (Machine.under_step _ _).mp moved
    exact covered.step keeps (workMove_of_step moved)
  intro settled key unit stored claimable
  rcases covered.queued key unit stored claimable with present | ⟨task, batchId, call⟩
  · exact present
  · exact absurd call (settled task key batchId)

/-- The scanner's call for one file. -/
def oneFile : Creation where
  batchId := "b"
  sourceUrl := "s3://in"
  outputPrefix := "out"
  configHash := "cfg"
  files := [(⟨"s3://in/f", 7⟩, "u")]

/-- A unit is created, claimed, failed and requeued; the queue covers it again. -/
theorem no_stranded_work_after_retry : ∃ history s,
    Run ((workQueue ⟨100, 30⟩).under KeepsQueue) .initial history s ∧ QueueCovers s ∧
      (s.units.get "b/u").map (·.status) = some .failed := by
  obtain ⟨history, s, run, seen⟩ := Run.of_observation
    ((workQueue ⟨100, 30⟩).under KeepsQueue) .initial
    [.createStart 0 oneFile, .createChunk 0 1, .createChunk 0 1, .scanPending 1 "w", .claimTxn 1 2,
      .failGet 1 "b" "u" "lost" 3, .failPut 1, .failRequeue 1]
    (fun reached => (reached.2.units.get "b/u").map (·.status)) (some .failed) (by decide)
  exact ⟨history, s, run, no_stranded_work _ run, seen⟩

/-- The worker that claimed the unit goes silent, and the reaper takes the unit
back: it is `Failed` with two attempts left, and no entry leads to it. -/
theorem reclaimed_unit_stranded :
    ¬ ∀ history s, Run (workQueue ⟨100, 30⟩) .initial history s → QueueCovers s := by
  intro covers
  obtain ⟨history, s, run, seen⟩ := Run.of_observation (workQueue ⟨100, 30⟩) .initial
    [.createStart 0 oneFile, .createChunk 0 1, .createChunk 0 1, .heartbeat "w" 1,
      .scanPending 1 "w", .claimTxn 1 2, .reclaimGet 2 "b" "u" "w" (seconds 60),
      .reclaimTxn 2 (seconds 60)]
    (fun reached => (reached.1.all (fun e => e.act.task.all (· < 3)),
      (List.range 3).all (fun task => !(reached.2.tasks task).call.armed),
      (reached.2.units.get "b/u").map WorkUnit.isClaimable, reached.2.pending.get "b/u"))
    (true, true, some true, none) (by decide)
  simp only [Prod.mk.injEq, List.all_eq_true, Option.map_eq_some_iff] at seen
  obtain ⟨acting, unarmed, ⟨unit, stored, claimable⟩, missing⟩ := seen
  have settled : NothingRequeueing s := by
    intro task key batchId call
    by_cases named : task < 3
    · have idle := unarmed task (List.mem_range.mpr named)
      simp [call, Call.armed] at idle
    · have still := run_keeps_task run fun e member (same : e.act.task = some task) => by
        have bound := acting e member
        simp [same] at bound
        exact named bound
      simp [still, WorkState.initial] at call
  have queued := covers history s run settled "b/u" unit stored claimable
  simp [missing] at queued

end Roboflow.Batch
