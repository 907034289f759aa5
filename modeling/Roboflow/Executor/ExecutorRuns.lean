import Roboflow.Executor.Concurrency
import Roboflow.Executor.StageScheduler

/-! The runs of the stage executor over an accepted pipeline whose tasks succeed, and the
execution of a pipeline by either of the two. -/
namespace Roboflow.Executor
open Library

namespace StageExecutor

variable {builder : PipelineBuilder} {pipeline : Pipeline} {order : IterationOrder (StageId × Stage)}
  {env : Environment} {s s' : ExecutorState} {maxConcurrent : Nat}

/-- The steps that stages can take: a wave and its end, and two for every task. -/
def cost (runs : List StageRun) : Nat := (runs.map fun run => 2 * run.handles.length + 2).sum

/-- How many steps the run has taken at most. -/
def Spent (steps : Nat) (s : ExecutorState) : Prop :=
  match s.phase with
  | .choosing => steps ≤ cost s.past
  | .joining => steps + total work s.wave + 1 ≤ cost s.past + cost s.wave
  | .returned _ => steps ≤ cost s.past + 1

/-- What holds where tasks succeed. -/
structure Succeeding (steps : Nat) (s : ExecutorState) : Prop where
  well : ∀ run ∈ s.wave, ∀ handle ∈ run.handles, ∀ error, handle.state ≠ .done (some error)
  unbroken : ∀ error, s.phase ≠ .returned (.error error)
  spent : Spent steps s

theorem total_of_waiting (waiting : ∀ run ∈ wave, ∀ handle ∈ run.handles, handle.state = .waiting)
    (some_ : wave ≠ []) : total work wave + 2 ≤ cost wave := by
  have each : ∀ run ∈ wave, (run.handles.map fun handle => work handle.state).sum =
      2 * run.handles.length := by
    intro run member
    have same : (run.handles.map fun handle => work handle.state) = run.handles.map fun _ => 2 :=
      List.map_congr_left fun handle listed => by rw [waiting run member handle listed, work]
    rw [same, List.map_const', List.sum_replicate, smul_eq_mul, Nat.mul_comm]
  have summed : total work wave = (wave.map fun run => 2 * run.handles.length).sum :=
    congrArg List.sum (List.map_congr_left each)
  have split : cost wave = (wave.map fun run => 2 * run.handles.length).sum + 2 * wave.length := by
    rw [cost, List.sum_map_add, List.map_const', List.sum_replicate, smul_eq_mul, Nat.mul_comm 2]
  have positive := List.length_pos_iff.mpr some_
  omega

theorem Places.cost_eq (placed : Places s s' run handle state) : cost s'.wave = cost s.wave := by
  obtain ⟨newer, older, earlier, later, split, parts, rfl⟩ := placed
  simp [cost, split, parts]

theorem Succeeding.place (succeeding : Succeeding steps s)
    (going : Going maxConcurrent pipeline order s) (placed : Places s s' run handle state)
    (good : ∀ error, state ≠ .done (some error)) (less : work state + 1 = work handle.state) :
    Succeeding (steps + 1) s' := by
  have joining : s.phase = .joining := by
    have some_ : s.wave ≠ [] := by
      obtain ⟨newer, older, -, -, split, -, -⟩ := placed
      simp [split]
    cases phase : s.phase with
    | choosing => exact absurd (going.idle phase) some_
    | joining => rfl
    | returned result =>
      cases result with
      | ok result => exact absurd (going.returned result phase).2 some_
      | error error => exact absurd phase (succeeding.unbroken error)
  obtain ⟨-, phase, past⟩ := placed.rest
  have moved := total_place work placed
  have spent := succeeding.spent
  simp only [Spent, joining] at spent
  exact {
    well := placed.all (fun state => ∀ error, state ≠ .done (some error)) succeeding.well good
    unbroken := by
      rw [phase]
      exact succeeding.unbroken
    spent := by
      simp only [Spent, phase, joining, past, placed.cost_eq]
      omega }

theorem Succeeding.step (succeeds : env.Succeeds) (succeeding : Succeeding steps s)
    (going : Going maxConcurrent pipeline order s)
    (moved : step maxConcurrent pipeline order env s a = some (s', out)) :
    Succeeding (steps + 1) s' := by
  have spent := succeeding.spent
  cases a with
  | wave =>
    obtain ⟨choosing, ⟨empty, rfl⟩ | ⟨some_, rfl⟩⟩ := wave_cases moved
    · simp only [Spent, choosing] at spent
      exact ⟨succeeding.well, by simp, by simp only [Spent]; omega⟩
    · have waiting :=
        waiting_spawnWave pipeline (pipeline.readyStages order s.completed) s.taskIdCounter
      have nonempty : (spawnWave pipeline s.taskIdCounter (pipeline.readyStages order s.completed)).2 ≠ [] := by
        intro none_
        have stages := stages_wave pipeline order s.completed s.taskIdCounter
        rw [none_] at stages
        exact some_ stages.symm
      have full := total_of_waiting waiting nonempty
      simp only [Spent, choosing] at spent
      refine ⟨fun run member handle listed error => ?_, by simp, ?_⟩
      · simp [waiting run member handle listed]
      · simp only [Spent]
        omega
  | start i j =>
    obtain ⟨run, handle, placed, waiting, -⟩ := start_cases moved
    exact succeeding.place going placed (by simp) (by rw [waiting]; rfl)
  | finish i j =>
    obtain ⟨run, handle, placed, runs⟩ := finish_cases moved
    rw [succeeds.execute] at placed
    exact succeeding.place going placed (by simp [failure]) (by rw [runs]; rfl)
  | join =>
    obtain ⟨joining, ⟨error, ⟨run, member, handle, listed, failed⟩, rfl⟩ | ⟨well, rfl⟩⟩ := join_cases moved
    · exact absurd failed (succeeding.well run member handle listed error)
    · simp only [Spent, joining] at spent
      refine ⟨by simp, by simp, ?_⟩
      simp only [Spent, cost, List.map_append, List.sum_append] at spent ⊢
      omega

theorem succeeding_of_run (succeeds : env.Succeeds)
    (run : Run (machine maxConcurrent pipeline order env) (.opened executeId taskIdCounter) history s) :
    Succeeding history.length s := by
  induction run with
  | start => exact ⟨by simp [ExecutorState.opened], by simp [ExecutorState.opened], Nat.zero_le _⟩
  | next before moved ih => exact ih.step succeeds (going_of_run before) moved

/-- What a run over an accepted pipeline should show: no stage twice and none before those it
depends on are joined, a task for every partition that is told its partition, a bound on the
steps, and a next step until every stage is joined. -/
structure RunsWell (builder : PipelineBuilder) (m : Machine ExecutorState Act Unit) (steps : Nat)
    (s : ExecutorState) : Prop where
  once : ((s.past ++ s.wave).map (·.stage)).Nodup
  after : ∀ run ∈ s.wave, ∀ dep, builder.DependsOn run.stage dep →
    ∃ joined ∈ s.past, joined.stage = dep ∧ ∀ handle ∈ joined.handles, handle.state = .done none
  tasks : ∀ run ∈ s.past ++ s.wave, ∀ stage ∈ builder.stages, stage.id = run.stage →
    run.handles.map (fun handle => (handle.task, handle.context.partition)) =
      (List.range stage.partitionCount).map fun i => (stage.createTask i, i)
  ends : steps ≤ (builder.stages.map fun stage => 2 * stage.partitionCount + 2).sum + 1
  goesOn : (∃ a s', m.step s a = some (s', ())) ∨
    (∃ result, s.phase = .returned (.ok result)) ∧ s.wave = [] ∧
      (s.past.map (·.stage)).Perm builder.ids ∧
      ∀ run ∈ s.past, ∀ handle ∈ run.handles, handle.state = .done none

theorem exists_step (positive : 0 < maxConcurrent) (succeeding : Succeeding steps s)
    (open_ : ∀ result, s.phase ≠ .returned result) :
    ∃ a s', (machine maxConcurrent pipeline order env).step s a = some (s', ()) := by
  cases phase : s.phase with
  | choosing =>
    by_cases empty : pipeline.readyStages order s.completed = []
    · exact ⟨.wave, _, by simp only [machine, step, phase, empty, List.isEmpty_nil, if_true]; rfl⟩
    · obtain ⟨s', moved, -⟩ := exists_spawned env maxConcurrent phase empty
      exact ⟨.wave, s', moved⟩
  | joining =>
    by_cases ended : ∀ run ∈ s.wave, ∀ handle ∈ run.handles, handle.state = .done none
    · exact ⟨.join, _, by
        simp only [machine, step, phase, joinAll_of_done ended, record_of_ok]
        rfl⟩
    · obtain ⟨a, s', -, -, -, moved, -⟩ :=
        exists_progress pipeline order env positive succeeding.well ended
      exact ⟨a, s', moved⟩
  | returned result => exact absurd phase (open_ result)

theorem Going.wave_ready (going : Going maxConcurrent pipeline order s) (member : run ∈ s.wave) :
    run.stage ∈ pipeline.readyStages order s.completed :=
  going.ready (List.ne_nil_of_mem member) ▸ List.mem_map_of_mem member

theorem Going.once_all (going : Going maxConcurrent pipeline order s) :
    ((s.past ++ s.wave).map (·.stage)).Nodup := by
  rw [List.map_append, List.nodup_append]
  refine ⟨going.once, ?_, ?_⟩
  · by_cases empty : s.wave = []
    · simp [empty]
    · rw [going.ready empty]
      exact Pipeline.readyStages_nodup ..
  · rintro id old other new rfl
    obtain ⟨run, member, rfl⟩ := List.mem_map.mp new
    have left := (Pipeline.mem_readyStages.mp (going.wave_ready member)).2.1
    rw [going.completed, List.mem_toFinset] at left
    exact left old

theorem Going.spawned_all (going : Going maxConcurrent pipeline order s)
    (member : run ∈ s.past ++ s.wave) : ∃ stage, Spawned maxConcurrent pipeline run stage :=
  (List.mem_append.mp member).elim (fun old => (going.past run old).1) (going.spawned run)

/-- The stages spawned so far cost no more than all stages do. -/
theorem Going.cost_le (valid : builder.Valid)
    (going : Going maxConcurrent ⟨builder.stagesById, builder.edges, sorted⟩ order s) :
    cost s.past + cost s.wave ≤ (builder.stages.map fun stage => 2 * stage.partitionCount + 2).sum := by
  have known : ∀ run ∈ s.past ++ s.wave, run.stage ∈ builder.ids := by
    intro run member
    obtain ⟨stage, spawned⟩ := going.spawned_all member
    have held := spawned.held
    exact (PipelineBuilder.isSome_stagesById _).mp (by rw [held]; rfl)
  have within : ((s.past ++ s.wave).map (·.stage)).Subperm builder.ids := by
    refine List.subperm_of_subset going.once_all fun id member => ?_
    obtain ⟨run, listed, rfl⟩ := List.mem_map.mp member
    exact known run listed
  let price (id : StageId) : Nat := 2 * Pipeline.partitions ⟨builder.stagesById, builder.edges, sorted⟩ id + 2
  have spent : cost s.past + cost s.wave = (((s.past ++ s.wave).map (·.stage)).map price).sum := by
    rw [cost, cost, ← List.sum_append, ← List.map_append, List.map_map]
    refine congrArg List.sum (List.map_congr_left fun run member => ?_)
    obtain ⟨stage, spawned⟩ := going.spawned_all member
    rw [spawned.length_eq]
    rfl
  have whole : builder.stages.map (fun stage => 2 * stage.partitionCount + 2) = builder.ids.map price := by
    rw [PipelineBuilder.ids, List.map_map]
    refine List.map_congr_left fun stage member => ?_
    have held := PipelineBuilder.get_stagesById valid.distinct member
    simp only [price, Function.comp_apply, Pipeline.partitions, held, Option.map_some, Option.getD_some]
  obtain ⟨part, perm, sublist⟩ := within
  rw [spent, whole, ← (perm.map price).sum_eq]
  exact (sublist.map price).sum_le_sum fun _ _ => Nat.zero_le _

/-- Every run over an accepted pipeline, for any limit that lets a task run. -/
theorem runsWell_of_run (valid : builder.Valid) (positive : 0 < maxConcurrent) (succeeds : env.Succeeds)
    (run : Run (machine maxConcurrent ⟨builder.stagesById, builder.edges, sorted⟩ order env)
      (.opened executeId taskIdCounter) history s) :
    RunsWell builder (machine maxConcurrent ⟨builder.stagesById, builder.edges, sorted⟩ order env)
      history.length s := by
  have going := going_of_run run
  have succeeding := succeeding_of_run succeeds run
  exact {
    once := going.once_all
    after := by
      intro run member dep needs
      have done := (Pipeline.mem_readyStages.mp (going.wave_ready member)).2.2 dep
        (PipelineBuilder.dependsOn_iff.mpr needs)
      rw [going.completed, List.mem_toFinset] at done
      obtain ⟨joined, old, rfl⟩ := List.mem_map.mp done
      exact ⟨joined, old, rfl, (going.past joined old).2⟩
    tasks := by
      intro run member stage listed same
      obtain ⟨held_, spawned⟩ := going.spawned_all member
      have held := spawned.held
      rw [← same, PipelineBuilder.get_stagesById valid.distinct listed] at held
      obtain rfl := Option.some.inj held
      have shaped := congrArg (List.map fun triple => (triple.1, triple.2.2)) spawned.shaped
      rwa [List.map_map, List.map_map] at shaped
    ends := by
      have bound := going.cost_le valid
      have spent := succeeding.spent
      unfold Spent at spent
      split at spent <;> omega
    goesOn := by
      cases phase : s.phase with
      | choosing => exact .inl (exists_step positive succeeding (by simp [phase]))
      | joining => exact .inl (exists_step positive succeeding (by simp [phase]))
      | returned result =>
        cases result with
        | error error => exact absurd phase (succeeding.unbroken error)
        | ok result =>
          obtain ⟨stuck, empty⟩ := going.returned result phase
          refine .inr ⟨⟨result, rfl⟩, empty, ?_, fun run member => (going.past run member).2⟩
          refine (List.perm_ext_iff_of_nodup going.once valid.distinct).mpr fun id => ?_
          constructor
          · intro member
            obtain ⟨run, old, rfl⟩ := List.mem_map.mp member
            obtain ⟨stage, spawned⟩ := (going.past run old).1
            have held := spawned.held
            exact (PipelineBuilder.isSome_stagesById _).mp (by rw [held]; rfl)
          · intro member
            have done := PipelineBuilder.completed_of_stuck valid stuck id member
            rwa [going.completed, List.mem_toFinset] at done }

end StageExecutor

/-- Both executions of an accepted pipeline are as they should be exactly if every stage has
one partition at most and the stages that declare dependencies of their own name the same
stages as the graph. -/
theorem scheduled_execution_iff {builder : PipelineBuilder} {pipeline : Pipeline} {orders : HashOrders}
    {maxConcurrent : Nat} (built : builder.build orders = .ok pipeline) (positive : 0 < maxConcurrent)
    (order : IterationOrder (StageId × Stage)) :
    (∀ env : Environment, env.Succeeds →
      (∃ result log, StageScheduler.executePipeline env pipeline order = .ok (result, log) ∧
        StageScheduler.RunsGraph builder result log) ∧
      ∀ executeId taskIdCounter history s,
        Run (StageExecutor.machine maxConcurrent pipeline order env)
          (.opened executeId taskIdCounter) history s →
        StageExecutor.RunsWell builder (StageExecutor.machine maxConcurrent pipeline order env)
          history.length s) ↔
    StageScheduler.SinglePartitions builder := by
  rcases PipelineBuilder.build_spec builder orders with ⟨sorted, made, valid, -⟩ | ⟨_, refused, -⟩
  · obtain rfl := Except.ok.inj (made.symm.trans built)
    rw [← StageScheduler.runsGraph_iff valid order sorted]
    refine forall_congr' fun env => forall_congr' fun succeeds => and_iff_left ?_
    exact fun executeId taskIdCounter history s run =>
      StageExecutor.runsWell_of_run valid positive succeeds run
  · rw [refused] at built
    cases built

/-- Two stages, the second after the first and saying so itself. -/
def chained : PipelineBuilder := ⟨[⟨0, 1, []⟩, ⟨1, 1, [0]⟩], [(1, 0)]⟩

theorem valid_chained : chained.Valid := by
  refine ⟨by decide, by decide, ?_⟩
  have respects : Respects chained.DependsOn [0, 1] := by
    refine Respects.concat (Respects.concat Respects.nil ?_) ?_ <;>
      simp [PipelineBuilder.DependsOn, chained]
  refine respects.acyclic (by decide) fun id dep needs => ?_
  simp_all [PipelineBuilder.DependsOn, chained]

theorem chained_scheduled : ∃ pipeline, chained.build PipelineBuilder.inKeyOrder = .ok pipeline ∧
    ∀ env : Environment, env.Succeeds → ∃ result log,
      StageScheduler.executePipeline env pipeline ⟨fun entries => entries, .refl⟩ = .ok (result, log) ∧
        StageScheduler.RunsGraph chained result log := by
  rcases PipelineBuilder.build_spec chained PipelineBuilder.inKeyOrder with
    ⟨sorted, built, -⟩ | ⟨_, -, unfit, -⟩
  · have single : StageScheduler.SinglePartitions chained := by
      unfold StageScheduler.SinglePartitions
      decide
    exact ⟨_, built, fun env succeeds =>
      ((scheduled_execution_iff built Nat.one_pos _).mpr single env succeeds).1⟩
  · exact absurd ⟨valid_chained, by decide⟩ unfit

/-- One stage of two partitions. -/
def halved : PipelineBuilder := ⟨[⟨0, 2, []⟩], []⟩

/-- No execution tells the second task its partition. -/
theorem second_partition_untold : ∃ pipeline, halved.build PipelineBuilder.inKeyOrder = .ok pipeline ∧
    ∀ (env : Environment) (order : IterationOrder (StageId × Stage)), env.Succeeds →
      ¬ ∃ result log, StageScheduler.executePipeline env pipeline order = .ok (result, log) ∧
        StageScheduler.RunsGraph halved result log := by
  have valid : halved.Valid := by
    refine ⟨by decide, by simp [halved], Acyclic.of_empty ?_⟩
    simp [PipelineBuilder.DependsOn, halved]
  rcases PipelineBuilder.build_spec halved PipelineBuilder.inKeyOrder with
    ⟨sorted, built, -⟩ | ⟨_, -, unfit, -⟩
  · refine ⟨_, built, fun env order succeeds => ?_⟩
    rintro ⟨result, log, ran, graph⟩
    have bound := StageScheduler.partitionCount_le_one valid succeeds ran graph ⟨0, 2, []⟩
      (by simp [halved])
    simp at bound
  · exact absurd ⟨valid, by decide⟩ unfit

end Roboflow.Executor
