import Roboflow.Executor.PipelineBuilder
import Roboflow.Executor.StageExecutor

/-! How many tasks of the stage executor run at once. -/
namespace Roboflow.Executor
open Library

namespace Pipeline

def partitions (pipeline : Pipeline) (id : StageId) : Nat :=
  ((pipeline.stages.get id).map (·.partitionCount)).getD 0

/-- The stages completed after so many waves. -/
def completedAfter (pipeline : Pipeline) (order : IterationOrder (StageId × Stage)) : Nat → Finset StageId
  | 0 => ∅
  | k + 1 => completedAfter pipeline order k ∪
      (pipeline.readyStages order (completedAfter pipeline order k)).toFinset

/-- The permits that the semaphores of a wave can give out at once. -/
def waveLoad (pipeline : Pipeline) (order : IterationOrder (StageId × Stage)) (maxConcurrent : Nat)
    (completed : Finset StageId) : Nat :=
  ((pipeline.readyStages order completed).map fun id => min maxConcurrent (pipeline.partitions id)).sum

end Pipeline

namespace StageExecutor

variable {pipeline : Pipeline} {order : IterationOrder (StageId × Stage)} {env : Environment}
  {s s' : ExecutorState} {maxConcurrent : Nat} {run : StageRun} {handle : Handle}

/-! ### The permits of a wave -/

theorem completed_of_run (run : Run (machine maxConcurrent pipeline order env)
    (.opened executeId taskIdCounter) history s) :
    ∃ k, s.completed = pipeline.completedAfter order k := by
  induction run with
  | start => exact ⟨0, rfl⟩
  | @next history s a s' out before moved ih =>
    obtain ⟨k, reached⟩ := ih
    change step maxConcurrent pipeline order env s a = some (s', out) at moved
    cases a with
    | wave =>
      obtain ⟨-, ⟨-, rfl⟩ | ⟨-, rfl⟩⟩ := wave_cases moved <;> exact ⟨k, reached⟩
    | start i j =>
      obtain ⟨_, _, ⟨_, _, _, _, _, _, rfl⟩, -⟩ := start_cases moved
      exact ⟨k, reached⟩
    | finish i j =>
      obtain ⟨_, _, ⟨_, _, _, _, _, _, rfl⟩, -⟩ := finish_cases moved
      exact ⟨k, reached⟩
    | join =>
      obtain ⟨-, ⟨_, -, rfl⟩ | ⟨-, rfl⟩⟩ := join_cases moved
      · exact ⟨k, reached⟩
      · by_cases empty : s.wave = []
        · exact ⟨k, by simp [empty, reached]⟩
        · refine ⟨k + 1, ?_⟩
          rw [Pipeline.completedAfter, ← reached, ← (going_of_run before).ready empty]

theorem Spawned.length_eq (spawned : Spawned maxConcurrent pipeline run stage) :
    run.handles.length = pipeline.partitions run.stage := by
  rw [Pipeline.partitions, spawned.held, Option.map_some, Option.getD_some, spawned.shaped.length]

theorem Spawned.running_le (spawned : Spawned maxConcurrent pipeline run stage) :
    run.running ≤ min maxConcurrent (pipeline.partitions run.stage) := by
  refine le_min spawned.bounded ?_
  rw [← spawned.length_eq]
  exact List.countP_le_length

/-- However the tasks of a wave are started, its permits bound those that run. -/
theorem Going.running_le (going : Going maxConcurrent pipeline order s) :
    s.running ≤ pipeline.waveLoad order maxConcurrent s.completed := by
  by_cases empty : s.wave = []
  · simp [ExecutorState.running, empty]
  · rw [Pipeline.waveLoad, ← going.ready empty, List.map_map]
    refine List.sum_le_sum fun run member => ?_
    obtain ⟨stage, spawned⟩ := going.spawned run member
    exact spawned.running_le

/-! ### Runs that take every permit -/

/-- A sum over the tasks of the wave. -/
def total (cost : TaskState → Nat) (wave : List StageRun) : Nat :=
  (wave.map fun run => (run.handles.map fun handle => cost handle.state).sum).sum

theorem total_place (cost : TaskState → Nat) (placed : Places s s' run handle state) :
    total cost s'.wave + cost handle.state = total cost s.wave + cost state := by
  obtain ⟨newer, older, before, after, split, parts, rfl⟩ := placed
  simp only [total, split, parts, List.map_append, List.map_cons, List.sum_append, List.sum_cons]
  omega

variable (pipeline order env) in
theorem exists_start (member : run ∈ s.wave) (listed : handle ∈ run.handles)
    (waiting : handle.state = .waiting) (free : run.running < maxConcurrent) :
    ∃ i j s', (machine maxConcurrent pipeline order env).step s (.start i j) = some (s', ()) ∧
      Places s s' run handle .running := by
  obtain ⟨i, at_i⟩ := List.getElem?_of_mem member
  obtain ⟨j, at_j⟩ := List.getElem?_of_mem listed
  exact ⟨i, j, _, by simp only [machine, step, at_i, at_j, waiting, free, and_self, if_true],
    places_place _ at_i at_j⟩

variable (maxConcurrent pipeline order env) in
theorem exists_finish (member : run ∈ s.wave) (listed : handle ∈ run.handles)
    (runs : handle.state = .running) :
    ∃ i j s', (machine maxConcurrent pipeline order env).step s (.finish i j) = some (s', ()) ∧
      Places s s' run handle (.done (failure (env.execute handle.task handle.context))) := by
  obtain ⟨i, at_i⟩ := List.getElem?_of_mem member
  obtain ⟨j, at_j⟩ := List.getElem?_of_mem listed
  exact ⟨i, j, _, by simp only [machine, step, at_i, at_j, runs, if_true], places_place _ at_i at_j⟩

variable (maxConcurrent env) in
/-- The next wave. -/
theorem exists_spawned (choosing : s.phase = .choosing)
    (some_ : pipeline.readyStages order s.completed ≠ []) :
    ∃ s', (machine maxConcurrent pipeline order env).step s .wave = some (s', ()) ∧
      s'.phase = .joining ∧ s'.completed = s.completed ∧
      s'.wave.map (·.stage) = pipeline.readyStages order s.completed ∧
      ∀ run ∈ s'.wave, ∀ handle ∈ run.handles, handle.state = .waiting := by
  refine ⟨{ s with
    taskIdCounter := (spawnWave pipeline s.taskIdCounter (pipeline.readyStages order s.completed)).1
    wave := (spawnWave pipeline s.taskIdCounter (pipeline.readyStages order s.completed)).2
    phase := .joining }, ?_, rfl, rfl, ?_, ?_⟩
  · have nonempty : (pipeline.readyStages order s.completed).isEmpty = false :=
      List.isEmpty_eq_false_iff.mpr some_
    simp only [machine, step, choosing, nonempty, Bool.false_eq_true, if_false]
  · exact stages_wave ..
  · exact waiting_spawnWave pipeline _ _

theorem Places.all (good : TaskState → Prop) (placed : Places s s' run handle state)
    (before : ∀ run ∈ s.wave, ∀ handle ∈ run.handles, good handle.state) (now : good state) :
    ∀ run ∈ s'.wave, ∀ handle ∈ run.handles, good handle.state := by
  obtain ⟨newer, older, earlier, later, split, parts, rfl⟩ := placed
  intro other member task listed
  have mine : ∀ task ∈ earlier ++ handle :: later, good task.state := fun task among =>
    before run (by rw [split]; simp) task (parts ▸ among)
  simp only [List.mem_append, List.mem_cons] at member
  rcases member with early | rfl | late
  · exact before other (by rw [split]; simp [early]) task listed
  · simp only [List.mem_append, List.mem_cons] at listed
    rcases listed with first | rfl | last
    · exact mine task (by simp [first])
    · exact now
    · exact mine task (by simp [last])
  · exact before other (by rw [split]; simp [late]) task listed

theorem Places.stages (placed : Places s s' run handle state) :
    s'.wave.map (·.stage) = s.wave.map (·.stage) := by
  obtain ⟨newer, older, earlier, later, split, parts, rfl⟩ := placed
  simp [split]

theorem Places.rest (placed : Places s s' run handle state) :
    s'.completed = s.completed ∧ s'.phase = s.phase ∧ s'.past = s.past := by
  obtain ⟨newer, older, earlier, later, split, parts, rfl⟩ := placed
  exact ⟨rfl, rfl, rfl⟩

/-- Starting tasks one after another takes every permit that has a task. -/
theorem exists_filled (reached : Run (machine maxConcurrent pipeline order env) start history s)
    (fresh : ∀ run ∈ s.wave, ∀ handle ∈ run.handles, handle.state = .waiting ∨ handle.state = .running) :
    ∃ history' s', Run (machine maxConcurrent pipeline order env) start history' s' ∧
      s'.completed = s.completed ∧ s'.wave.map (·.stage) = s.wave.map (·.stage) ∧
      ∀ run ∈ s'.wave, min maxConcurrent run.handles.length ≤ run.running := by
  induction left : total (fun state => if state = .waiting then 1 else 0) s.wave
    using Nat.strong_induction_on generalizing history s with
  | _ n ih =>
    by_cases full : ∀ run ∈ s.wave, min maxConcurrent run.handles.length ≤ run.running
    · exact ⟨history, s, reached, rfl, rfl, full⟩
    · push Not at full
      obtain ⟨run, member, short⟩ := full
      obtain ⟨free, fewer⟩ := lt_min_iff.mp short
      have idle : ∃ handle ∈ run.handles, handle.state ≠ .running := by
        by_contra all
        push Not at all
        rw [StageRun.running, List.countP_eq_length.mpr (by simpa using all)] at fewer
        exact lt_irrefl _ fewer
      obtain ⟨handle, listed, other⟩ := idle
      have waiting := (fresh run member handle listed).resolve_right other
      obtain ⟨i, j, s', moved, placed⟩ := exists_start pipeline order env member listed waiting free
      have less := total_place (fun state => if state = .waiting then 1 else 0) placed
      simp only [waiting, reduceCtorEq, if_true, if_false, left] at less
      obtain ⟨history', last, run', completed, stages, filled⟩ :=
        ih _ (by omega) (reached.next moved)
          (placed.all (fun state => state = .waiting ∨ state = .running) fresh (.inr rfl)) rfl
      exact ⟨history', last, run', completed.trans placed.rest.1, stages.trans placed.stages, filled⟩

variable (pipeline order env) in
/-- In a wave that is not over and in which no task has failed, something can go on. -/
theorem exists_progress (positive : 0 < maxConcurrent)
    (well : ∀ run ∈ s.wave, ∀ handle ∈ run.handles, ∀ error, handle.state ≠ .done (some error))
    (open_ : ¬ ∀ run ∈ s.wave, ∀ handle ∈ run.handles, handle.state = .done none) :
    ∃ a s' run handle state, (machine maxConcurrent pipeline order env).step s a = some (s', ()) ∧
      Places s s' run handle state ∧
      ((handle.state = .waiting ∧ state = .running) ∨ (handle.state = .running ∧
        state = .done (failure (env.execute handle.task handle.context)))) := by
  push Not at open_
  obtain ⟨run, member, handle, listed, undone⟩ := open_
  by_cases some_ : ∃ other ∈ run.handles, other.state = .running
  · obtain ⟨other, among, runs⟩ := some_
    obtain ⟨i, j, s', moved, placed⟩ := exists_finish pipeline order env maxConcurrent member among runs
    exact ⟨_, s', run, other, _, moved, placed, .inr ⟨runs, rfl⟩⟩
  · push Not at some_
    have idle : run.running = 0 := List.countP_eq_zero.mpr (by simpa using some_)
    have waiting : handle.state = .waiting := by
      cases state : handle.state with
      | waiting => rfl
      | running => exact absurd state (some_ handle listed)
      | done error =>
        cases error with
        | none => exact absurd state undone
        | some error => exact absurd state (well run member handle listed error)
    obtain ⟨i, j, s', moved, placed⟩ := exists_start pipeline order env member listed waiting (idle ▸ positive)
    exact ⟨_, s', run, handle, _, moved, placed, .inl ⟨waiting, rfl⟩⟩

/-- What is left to do for the tasks of a wave. -/
def work : TaskState → Nat
  | .waiting => 2
  | .running => 1
  | .done _ => 0

/-- A wave whose tasks succeed can be brought to its end. -/
theorem exists_joined (positive : 0 < maxConcurrent)
    (succeeds : env.Succeeds)
    (reached : Run (machine maxConcurrent pipeline order env) start history s)
    (joining : s.phase = .joining)
    (well : ∀ run ∈ s.wave, ∀ handle ∈ run.handles, ∀ error, handle.state ≠ .done (some error)) :
    ∃ history' s', Run (machine maxConcurrent pipeline order env) start history' s' ∧
      s'.phase = .choosing ∧ s'.completed = s.completed ∪ (s.wave.map (·.stage)).toFinset := by
  induction left : total work s.wave using Nat.strong_induction_on generalizing history s with
  | _ n ih =>
    by_cases ended : ∀ run ∈ s.wave, ∀ handle ∈ run.handles, handle.state = .done none
    · have moved : (machine maxConcurrent pipeline order env).step s .join = some ({ s with
          completed := s.completed ∪ (s.wave.map (·.stage)).toFinset
          totalTasks := s.totalTasks + spawnedTasks s.wave
          phase := .choosing
          wave := []
          past := s.past ++ s.wave }, ()) := by
        simp only [machine, step, joining, joinAll_of_done ended, record_of_ok]
      exact ⟨_, _, reached.next moved, rfl, rfl⟩
    · obtain ⟨a, s', run, handle, state, moved, placed, change⟩ :=
        exists_progress pipeline order env positive well ended
      have less := total_place work placed
      have good : ∀ error, state ≠ .done (some error) := by
        obtain ⟨outputs, given⟩ := succeeds.ok handle.task handle.context
        rcases change with ⟨-, rfl⟩ | ⟨-, rfl⟩
        · simp
        · simp [given, failure]
      have fewer : total work s'.wave < n := by
        rcases change with ⟨was, rfl⟩ | ⟨was, rfl⟩ <;> simp only [was, work] at less <;> omega
      obtain ⟨history', last, run', choosing, completed⟩ := ih _ fewer (reached.next moved)
        (placed.rest.2.1.trans joining)
        (placed.all (fun state => ∀ error, state ≠ .done (some error)) well good) rfl
      exact ⟨history', last, run', choosing, by rw [completed, placed.rest.1, placed.stages]⟩

variable (pipeline order) in
/-- A run whose tasks succeed can come to the end of any wave. -/
theorem exists_wave (positive : 0 < maxConcurrent)
    (succeeds : env.Succeeds)
    (executeId : Nat) (taskIdCounter : TaskId) (k : Nat) :
    ∃ history s, Run (machine maxConcurrent pipeline order env) (.opened executeId taskIdCounter) history s ∧
      s.phase = .choosing ∧ s.completed = pipeline.completedAfter order k := by
  induction k with
  | zero => exact ⟨[], _, .start, rfl, rfl⟩
  | succ k ih =>
    obtain ⟨history, s, reached, choosing, completed⟩ := ih
    by_cases empty : pipeline.readyStages order s.completed = []
    · exact ⟨history, s, reached, choosing, by
        rw [Pipeline.completedAfter, ← completed, empty, List.toFinset_nil, Finset.union_empty]⟩
    · obtain ⟨s', moved, joining, kept, stages, waiting⟩ :=
        exists_spawned env maxConcurrent choosing empty
      obtain ⟨history', last, run', ended, completed'⟩ :=
        exists_joined positive succeeds (reached.next moved) joining
          fun run member handle listed error => by simp [waiting run member handle listed]
      exact ⟨history', last, run', ended, by
        rw [completed', kept, stages, completed, Pipeline.completedAfter]⟩

/-- No more tasks run than were asked for exactly if the stages of no wave have that many
permits among them. -/
theorem concurrency_bounded_iff (pipeline : Pipeline) (order : IterationOrder (StageId × Stage))
    (maxConcurrent : Nat) :
    (∀ env executeId taskIdCounter history s,
      Run (machine maxConcurrent pipeline order env) (.opened executeId taskIdCounter) history s →
        s.running ≤ maxConcurrent) ↔
    ∀ k, pipeline.waveLoad order maxConcurrent (pipeline.completedAfter order k) ≤ maxConcurrent := by
  constructor
  · intro bounded k
    rcases Nat.eq_zero_or_pos maxConcurrent with rfl | positive
    · simp [Pipeline.waveLoad]
    · let env : Environment := ⟨fun _ => true, fun _ _ => .ok []⟩
      have succeeds : env.Succeeds := ⟨fun _ => rfl, fun _ _ => ⟨[], rfl⟩⟩
      obtain ⟨history, s, reached, choosing, completed⟩ :=
        exists_wave pipeline order positive succeeds 0 0 k
      by_cases empty : pipeline.readyStages order s.completed = []
      · rw [Pipeline.waveLoad, ← completed, empty]
        exact Nat.zero_le _
      · obtain ⟨s', moved, -, kept, stages, waiting⟩ :=
          exists_spawned env maxConcurrent choosing empty
        obtain ⟨history', last, run', kept', stages', filled⟩ := exists_filled (reached.next moved)
          fun run member handle listed => .inl (waiting run member handle listed)
        have going := going_of_run run'
        refine le_trans ?_ (bounded env 0 0 history' last run')
        rw [Pipeline.waveLoad, ← completed, ← stages, ← stages', List.map_map]
        refine List.sum_le_sum fun run member => ?_
        obtain ⟨stage, spawned⟩ := going.spawned run member
        have enough := filled run member
        rwa [spawned.length_eq] at enough
  · intro fits env executeId taskIdCounter history s run
    obtain ⟨k, reached⟩ := completed_of_run run
    have load := (going_of_run run).running_le
    rw [reached] at load
    exact load.trans (fits k)

/-- Two stages of one task each, neither waiting for the other. -/
def sideBySide : PipelineBuilder := ⟨[⟨0, 1, []⟩, ⟨1, 1, []⟩], []⟩

theorem valid_sideBySide : sideBySide.Valid := by
  refine ⟨by decide, by simp [sideBySide], Acyclic.of_empty ?_⟩
  simp [PipelineBuilder.DependsOn, sideBySide]

/-- Both tasks run under a limit of one. -/
theorem two_run_of_one : ∃ pipeline, sideBySide.build PipelineBuilder.inKeyOrder = .ok pipeline ∧
    ∃ env history s, Run (machine 1 pipeline ⟨fun entries => entries, .refl⟩ env) (.opened 0 0) history s ∧
      s.running = 2 := by
  rcases PipelineBuilder.build_spec sideBySide PipelineBuilder.inKeyOrder with
    ⟨order, built, -⟩ | ⟨error, -, unfit, -⟩
  · let env : Environment := ⟨fun _ => true, fun _ _ => .ok []⟩
    exact ⟨_, built, env, Run.of_observation (machine 1 _ _ env) (.opened 0 0)
      [.wave, .start 0 0, .start 1 0] (fun reached => reached.2.running) 2 rfl⟩
  · exact absurd ⟨valid_sideBySide, by decide⟩ unfit

end StageExecutor
end Roboflow.Executor
