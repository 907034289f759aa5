import Roboflow.Executor.PipelineBuilder
import Roboflow.Executor.StageExecutor

/-! The stage scheduler of `scheduler.rs`: it runs the ready stages of a pipeline one after
another, and the tasks of a stage one after another. -/
namespace Roboflow.Executor
open Library

/-- A task that was run, the context it was given and the output paths it gave. -/
structure TaskRun where
  task : Task
  context : TaskContext
  outputs : List String
  deriving DecidableEq

structure PipelineResult where
  stageOutputs : Kv StageId (List String)
  finalOutputs : List String

/-- `log` keeps the stages executed, in order, which the code drops. -/
structure SchedulerState where
  completedStages : Finset StageId
  stageOutputs : Kv StageId (List String)
  log : List (StageId × List TaskRun)

namespace StageScheduler

/-- Every context has the same task and the same partition. -/
def contextOf (stage : Stage) : TaskContext := ⟨0, stage.id, 0⟩

def runTasks (env : Environment) (stage : Stage) : List Task → Except String (List TaskRun)
  | [] => .ok []
  | task :: rest =>
    if env.granted task then
      match env.execute task (contextOf stage) with
      | .error error => .error error
      | .ok outputs =>
        match runTasks env stage rest with
        | .error error => .error error
        | .ok runs => .ok (⟨task, contextOf stage, outputs⟩ :: runs)
    else .error "No available slots"

/-- `execute_stage`, with the tasks it ran. -/
def executeStage (env : Environment) (stage : Stage) : Except String (List TaskRun) :=
  runTasks env stage ((List.range stage.partitionCount).map stage.createTask)

def outputsOf (runs : List TaskRun) : List String := runs.flatMap (·.outputs)

def executeReady (env : Environment) (pipeline : Pipeline) :
    List StageId → SchedulerState → Except String SchedulerState
  | [], s => .ok s
  | id :: rest, s =>
    match pipeline.stages.get id with
    | none => executeReady env pipeline rest s
    | some stage =>
      match executeStage env stage with
      | .error error => .error error
      | .ok runs => executeReady env pipeline rest {
          completedStages := insert id s.completedStages
          stageOutputs := s.stageOutputs.put id (outputsOf runs)
          log := s.log ++ [(id, runs)] }

/-- The stages that are not completed yet. -/
def remaining (pipeline : Pipeline) (completed : Finset StageId) : Nat :=
  ((pipeline.stages.entries.map Prod.fst).toFinset \ completed).card

theorem completed_executeReady (known : ∀ id ∈ ids, (pipeline.stages.get id).isSome)
    (ran : executeReady env pipeline ids s = .ok s') :
    s'.completedStages = s.completedStages ∪ ids.toFinset := by
  induction ids generalizing s with
  | nil =>
    obtain rfl := Except.ok.inj ran
    simp
  | cons id rest ih =>
    obtain ⟨stage, held⟩ := Option.isSome_iff_exists.mp (known id List.mem_cons_self)
    simp only [executeReady, held] at ran
    split at ran
    · cases ran
    · rw [ih (fun other member => known other (List.mem_cons_of_mem _ member)) ran,
        List.toFinset_cons, Finset.insert_union, Finset.union_insert]

/-- A wave that is not empty leaves fewer stages. -/
theorem remaining_lt (some_ : pipeline.readyStages order completed ≠ []) :
    remaining pipeline (completed ∪ (pipeline.readyStages order completed).toFinset) <
      remaining pipeline completed := by
  obtain ⟨id, member⟩ := List.exists_mem_of_ne_nil _ some_
  obtain ⟨known, left, -⟩ := Pipeline.mem_readyStages.mp member
  refine Finset.card_lt_card (Finset.ssubset_iff_of_subset ?_ |>.mpr ⟨id, ?_, ?_⟩)
  · exact Finset.sdiff_subset_sdiff subset_rfl Finset.subset_union_left
  · exact Finset.mem_sdiff.mpr ⟨List.mem_toFinset.mpr ((Kv.mem_keys _).mpr known), left⟩
  · intro still
    exact (Finset.mem_sdiff.mp still).2 (Finset.mem_union_right _ (List.mem_toFinset.mpr member))

/-- The loop of `execute_pipeline`. -/
def executeWaves (env : Environment) (pipeline : Pipeline) (order : IterationOrder (StageId × Stage))
    (s : SchedulerState) : Except String SchedulerState :=
  let ready := pipeline.readyStages order s.completedStages
  if ready.isEmpty then .ok s
  else
    match _ran : executeReady env pipeline ready s with
    | .error error => .error error
    | .ok s' => executeWaves env pipeline order s'
termination_by remaining pipeline s.completedStages
decreasing_by
  rename_i some_
  rw [completed_executeReady (fun id member => (Pipeline.mem_readyStages.mp member).1) _ran]
  exact remaining_lt fun empty => some_ (List.isEmpty_iff.mpr empty)

/-- The outputs of the stages that no stage names as a dependency of its own. -/
def finalOutputs (pipeline : Pipeline) (order : IterationOrder (StageId × Stage))
    (stageOutputs : Kv StageId (List String)) : List String :=
  (((order.arrange pipeline.stages.entries).map Prod.fst).filter fun id =>
    ¬ (order.arrange pipeline.stages.entries).any fun entry => id ∈ entry.2.dependencies).flatMap
      fun id => stageOutputs.bucket id

/-- `execute_pipeline`, with the stages it executed. -/
def executePipeline (env : Environment) (pipeline : Pipeline)
    (order : IterationOrder (StageId × Stage)) :
    Except String (PipelineResult × List (StageId × List TaskRun)) :=
  match executeWaves env pipeline order ⟨∅, .empty, []⟩ with
  | .error error => .error error
  | .ok s => .ok (⟨s.stageOutputs, finalOutputs pipeline order s.stageOutputs⟩, s.log)

variable {env : Environment} {pipeline : Pipeline} {order : IterationOrder (StageId × Stage)}
  {s s' : SchedulerState}

/-! ### What a wave does -/

/-- The tasks of a stage, each with what it gives. -/
def runsOf (env : Environment) (stage : Stage) : List TaskRun :=
  (List.range stage.partitionCount).map fun i =>
    ⟨stage.createTask i, contextOf stage, env.outputs (stage.createTask i) (contextOf stage)⟩

theorem executeStage_ok (succeeds : env.Succeeds) (stage : Stage) :
    executeStage env stage = .ok (runsOf env stage) := by
  have each : ∀ tasks, runTasks env stage tasks = .ok (tasks.map fun task =>
      ⟨task, contextOf stage, env.outputs task (contextOf stage)⟩) := by
    intro tasks
    induction tasks with
    | nil => rfl
    | cons task rest ih =>
      simp only [runTasks, succeeds.granted task, succeeds.execute, ih, if_true, List.map_cons]
  rw [executeStage, each, List.map_map]
  rfl

/-- What is logged for a stage of the pipeline. -/
def logged (env : Environment) (pipeline : Pipeline) (id : StageId) : List TaskRun :=
  ((pipeline.stages.get id).map (runsOf env)).getD []

theorem executeReady_ok (succeeds : env.Succeeds) (known : ∀ id ∈ ids, (pipeline.stages.get id).isSome) :
    executeReady env pipeline ids s = .ok {
      completedStages := s.completedStages ∪ ids.toFinset
      stageOutputs := s.stageOutputs.putAll
        (ids.map fun id => (id, outputsOf (logged env pipeline id)))
      log := s.log ++ ids.map fun id => (id, logged env pipeline id) } := by
  induction ids generalizing s with
  | nil => simp [executeReady, Kv.putAll]
  | cons id rest ih =>
    obtain ⟨stage, held⟩ := Option.isSome_iff_exists.mp (known id List.mem_cons_self)
    have mine : logged env pipeline id = runsOf env stage := by
      rw [logged, held, Option.map_some, Option.getD_some]
    simp only [executeReady, held, executeStage_ok succeeds]
    rw [ih fun other member => known other (List.mem_cons_of_mem _ member)]
    simp only [List.map_cons, List.toFinset_cons, mine, Finset.insert_union, Finset.union_insert,
      List.append_assoc, List.singleton_append]
    rfl

/-- What holds after every wave. -/
structure Walked (env : Environment) (pipeline : Pipeline) (s : SchedulerState) : Prop where
  completed : s.completedStages = (s.log.map Prod.fst).toFinset
  once : (s.log.map Prod.fst).Nodup
  respects : Respects (fun id dep => dep ∈ pipeline.dependencies.bucket id) (s.log.map Prod.fst)
  known : ∀ entry ∈ s.log, (pipeline.stages.get entry.1).isSome ∧ entry.2 = logged env pipeline entry.1
  outputs : ∀ id ∈ s.log.map Prod.fst,
    s.stageOutputs.get id = some (outputsOf (logged env pipeline id))

theorem Walked.wave (walked : Walked env pipeline s) (order : IterationOrder (StageId × Stage)) :
    Walked env pipeline {
      completedStages := s.completedStages ∪ (pipeline.readyStages order s.completedStages).toFinset
      stageOutputs := s.stageOutputs.putAll ((pipeline.readyStages order s.completedStages).map
        fun id => (id, outputsOf (logged env pipeline id)))
      log := s.log ++ (pipeline.readyStages order s.completedStages).map
        fun id => (id, logged env pipeline id) } := by
  have keys : ((pipeline.readyStages order s.completedStages).map fun id =>
      (id, logged env pipeline id)).map Prod.fst = pipeline.readyStages order s.completedStages := by
    rw [List.map_map]
    exact List.map_id _
  have written : ((pipeline.readyStages order s.completedStages).map fun id =>
      (id, outputsOf (logged env pipeline id))).map Prod.fst =
        pipeline.readyStages order s.completedStages := by
    rw [List.map_map]
    exact List.map_id _
  have fresh : ∀ id ∈ pipeline.readyStages order s.completedStages, id ∉ s.log.map Prod.fst := by
    intro id member old
    have left := (Pipeline.mem_readyStages.mp member).2.1
    rw [walked.completed, List.mem_toFinset] at left
    exact left old
  exact {
    completed := by
      rw [List.map_append, keys, List.toFinset_append, walked.completed]
    once := by
      rw [List.map_append, keys, List.nodup_append]
      refine ⟨walked.once, Pipeline.readyStages_nodup .., ?_⟩
      rintro id old other new rfl
      exact fresh id new old
    respects := by
      rw [List.map_append, keys]
      refine walked.respects.append fun id member dep needs => ?_
      have done := (Pipeline.mem_readyStages.mp member).2.2 dep needs
      rwa [walked.completed, List.mem_toFinset] at done
    known := by
      intro entry member
      rcases List.mem_append.mp member with old | new
      · exact walked.known entry old
      · obtain ⟨id, listed, rfl⟩ := List.mem_map.mp new
        exact ⟨(Pipeline.mem_readyStages.mp listed).1, rfl⟩
    outputs := by
      intro id member
      rw [List.map_append, keys, List.mem_append] at member
      rcases member with old | new
      · rw [Kv.get_putAll_of_notMem]
        · exact walked.outputs id old
        · rw [written]
          exact fun new => fresh id new old
      · refine Kv.get_putAll_of_nodup _ ?_ (List.mem_map.mpr ⟨id, new, rfl⟩)
        rw [written]
        exact Pipeline.readyStages_nodup .. }

/-- The loop comes to an end, with no stage ready. -/
theorem executeWaves_ok (order : IterationOrder (StageId × Stage)) (succeeds : env.Succeeds)
    (walked : Walked env pipeline s) :
    ∃ s', executeWaves env pipeline order s = .ok s' ∧ Walked env pipeline s' ∧
      pipeline.readyStages order s'.completedStages = [] := by
  have known : ∀ s : SchedulerState, ∀ id ∈ pipeline.readyStages order s.completedStages,
      (pipeline.stages.get id).isSome := fun s id member => (Pipeline.mem_readyStages.mp member).1
  fun_induction executeWaves env pipeline order s with
  | case1 s ready empty => exact ⟨s, rfl, walked, List.isEmpty_iff.mp empty⟩
  | case2 s ready some_ error failed =>
    rw [executeReady_ok succeeds (known s)] at failed
    cases failed
  | case3 s ready some_ next ran ih =>
    rw [executeReady_ok succeeds (known s)] at ran
    obtain rfl := Except.ok.inj ran
    exact ih (walked.wave order)

/-! ### Accepted pipelines -/

variable {builder : PipelineBuilder}

/-- What the execution of an accepted pipeline should be: every stage once and after those it
depends on, a task for every partition that is told its partition, and in the final outputs
those of the stages on which none depends. -/
structure RunsGraph (builder : PipelineBuilder) (result : PipelineResult)
    (log : List (StageId × List TaskRun)) : Prop where
  once : (log.map Prod.fst).Perm builder.ids
  after : Respects builder.DependsOn (log.map Prod.fst)
  tasks : ∀ entry ∈ log, ∀ stage ∈ builder.stages, stage.id = entry.1 →
    entry.2.map (fun run => (run.task, run.context.partition)) =
      (List.range stage.partitionCount).map fun i => (stage.createTask i, i)
  final : result.finalOutputs.Perm
    ((log.filter fun entry => ¬ builder.HasDependent entry.1).flatMap fun entry => outputsOf entry.2)

theorem flatMap_filter (p : α → Bool) (f : α → List β) (l : List α) :
    (l.filter p).flatMap f = l.flatMap fun a => if p a then f a else [] := by
  induction l with
  | nil => rfl
  | cons a rest ih =>
    rw [List.filter_cons, List.flatMap_cons, ← ih]
    cases p a <;> simp

/-- The execution, whatever the tasks give. -/
theorem executePipeline_ok (valid : builder.Valid) (succeeds : env.Succeeds)
    (order : IterationOrder (StageId × Stage)) (sorted : List StageId) :
    ∃ outputs log,
      executePipeline env ⟨builder.stagesById, builder.edges, sorted⟩ order = .ok (⟨outputs,
        finalOutputs ⟨builder.stagesById, builder.edges, sorted⟩ order outputs⟩, log) ∧
      (log.map Prod.fst).Perm builder.ids ∧ Respects builder.DependsOn (log.map Prod.fst) ∧
      (∀ entry ∈ log, ∀ stage ∈ builder.stages, stage.id = entry.1 → entry.2 = runsOf env stage) ∧
      ∀ entry ∈ log, outputs.bucket entry.1 = outputsOf entry.2 := by
  have start : Walked env ⟨builder.stagesById, builder.edges, sorted⟩ ⟨∅, .empty, []⟩ :=
    ⟨rfl, List.nodup_nil, Respects.nil, by simp, by simp⟩
  obtain ⟨s, ran, walked, stuck⟩ := executeWaves_ok order succeeds start
  have inside : ∀ id, id ∈ s.log.map Prod.fst ↔ id ∈ builder.ids := by
    intro id
    constructor
    · intro member
      obtain ⟨entry, listed, rfl⟩ := List.mem_map.mp member
      exact (PipelineBuilder.isSome_stagesById _).mp (walked.known entry listed).1
    · intro member
      have done := PipelineBuilder.completed_of_stuck valid stuck id member
      rwa [walked.completed, List.mem_toFinset] at done
  have respects := walked.respects
  rw [PipelineBuilder.bucket_edges] at respects
  refine ⟨s.stageOutputs, s.log, by simp only [executePipeline, ran], ?_, respects, ?_, ?_⟩
  · exact (List.perm_ext_iff_of_nodup walked.once valid.distinct).mpr inside
  · intro entry member stage listed same
    rw [(walked.known entry member).2, logged, ← same,
      PipelineBuilder.get_stagesById valid.distinct listed, Option.map_some, Option.getD_some]
  · intro entry member
    rw [Kv.bucket, walked.outputs entry.1 (List.mem_map_of_mem member), Option.getD_some,
      (walked.known entry member).2]

theorem mem_entries_stagesById (distinct : builder.ids.Nodup) {entry : StageId × Stage} :
    entry ∈ builder.stagesById.entries ↔ entry.2 ∈ builder.stages ∧ entry.2.id = entry.1 := by
  obtain ⟨id, stage⟩ := entry
  rw [builder.stagesById.mem_entries]
  constructor
  · intro held
    have member : id ∈ builder.ids := (PipelineBuilder.isSome_stagesById id).mp (by rw [held]; rfl)
    obtain ⟨other, listed, rfl⟩ := List.mem_map.mp member
    rw [PipelineBuilder.get_stagesById distinct listed] at held
    obtain rfl := Option.some.inj held
    exact ⟨listed, rfl⟩
  · rintro ⟨listed, same⟩
    rw [← show stage.id = id from same]
    exact PipelineBuilder.get_stagesById distinct listed

/-- The terminal stages are those the code's own test leaves. -/
theorem finalOutputs_perm (distinct : builder.ids.Nodup) (order : IterationOrder (StageId × Stage))
    (sorted : List StageId) (outputs : Kv StageId (List String)) :
    (finalOutputs ⟨builder.stagesById, builder.edges, sorted⟩ order outputs).Perm
      ((builder.ids.filter fun id => ¬ builder.Named id).flatMap fun id => outputs.bucket id) := by
  have arranged := order.perm builder.stagesById.entries
  have named : ∀ id, ((order.arrange builder.stagesById.entries).any fun entry =>
      id ∈ entry.2.dependencies) = true ↔ builder.Named id := by
    intro id
    rw [List.any_eq_true]
    constructor
    · rintro ⟨entry, member, names⟩
      have listed := ((mem_entries_stagesById distinct).mp (arranged.mem_iff.mp member)).1
      exact ⟨entry.2, listed, of_decide_eq_true names⟩
    · rintro ⟨other, listed, names⟩
      exact ⟨(other.id, other), arranged.mem_iff.mpr
        ((mem_entries_stagesById distinct).mpr ⟨listed, rfl⟩), decide_eq_true names⟩
  simp only [finalOutputs, named]
  exact (((arranged.map Prod.fst).trans
    (PipelineBuilder.keys_stagesById distinct)).filter _).flatMap_right _

theorem outputsOf_runsOf_nil {stage : Stage} (none_ : stage.partitionCount = 0) :
    outputsOf (runsOf env stage) = [] := by
  simp [runsOf, none_, outputsOf]

theorem tasks_runsOf (env : Environment) (stage : Stage) :
    (runsOf env stage).map (fun run => (run.task, run.context.partition)) =
      (List.range stage.partitionCount).map fun i => (stage.createTask i, 0) := by
  rw [runsOf, List.map_map]
  rfl

/-- Where every task is that of partition zero, and the two sources of dependencies agree on
what is terminal. -/
def SinglePartitions (builder : PipelineBuilder) : Prop :=
  ∀ stage ∈ builder.stages, stage.partitionCount ≤ 1 ∧
    (0 < stage.partitionCount → (builder.Named stage.id ↔ builder.HasDependent stage.id))

theorem runsGraph_of_single (valid : builder.Valid) (single : SinglePartitions builder)
    (succeeds : env.Succeeds) (order : IterationOrder (StageId × Stage)) (sorted : List StageId) :
    ∃ result log, executePipeline env ⟨builder.stagesById, builder.edges, sorted⟩ order =
      .ok (result, log) ∧ RunsGraph builder result log := by
  obtain ⟨outputs, log, ran, once, after, runs, given⟩ :=
    executePipeline_ok valid succeeds order sorted
  refine ⟨_, log, ran, once, after, ?_, ?_⟩
  · intro entry member stage listed same
    rw [runs entry member stage listed same, tasks_runsOf]
    refine List.map_congr_left fun i inside => ?_
    have first := Nat.lt_one_iff.mp ((List.mem_range.mp inside).trans_le (single stage listed).1)
    rw [first]
  · refine (finalOutputs_perm valid.distinct order sorted outputs).trans ?_
    have listed : (log.filter fun entry => ¬ builder.HasDependent entry.1).flatMap
          (fun entry => outputsOf entry.2) =
        ((log.map Prod.fst).filter fun id => ¬ builder.HasDependent id).flatMap
          fun id => outputs.bucket id := by
      rw [List.filter_map, List.flatMap_map]
      exact List.flatMap_congr fun entry member => (given entry (List.mem_of_mem_filter member)).symm
    rw [listed]
    refine List.Perm.trans ?_ ((once.filter _).flatMap_right _).symm
    rw [flatMap_filter, flatMap_filter]
    refine List.Perm.of_eq (List.flatMap_congr fun id member => ?_)
    obtain ⟨stage, held, rfl⟩ := List.mem_map.mp member
    by_cases some_ : 0 < stage.partitionCount
    · simp [(single stage held).2 some_]
    · obtain ⟨entry, logged_, same⟩ := List.mem_map.mp (once.mem_iff.mpr member)
      have bare : outputs.bucket stage.id = [] := by
        rw [← same, given entry logged_, runs entry logged_ stage held same.symm,
          outputsOf_runsOf_nil (by omega)]
      simp [bare]

/-- The context of every task names partition zero. -/
theorem partitionCount_le_one (valid : builder.Valid) (succeeds : env.Succeeds)
    (ran : executePipeline env ⟨builder.stagesById, builder.edges, sorted⟩ order = .ok (result, log))
    (graph : RunsGraph builder result log) (stage : Stage) (listed : stage ∈ builder.stages) :
    stage.partitionCount ≤ 1 := by
  obtain ⟨outputs, log', ran', once, -, runs, -⟩ := executePipeline_ok valid succeeds order sorted
  obtain ⟨rfl, rfl⟩ := Prod.mk.inj (Except.ok.inj (ran'.symm.trans ran))
  obtain ⟨entry, entered, same⟩ :=
    List.mem_map.mp (once.mem_iff.mpr (List.mem_map_of_mem (f := Stage.id) listed))
  have tasks := graph.tasks entry entered stage listed same.symm
  rw [runs entry entered stage listed same.symm, tasks_runsOf] at tasks
  by_contra many
  have second := congrArg (fun pairs => pairs[1]?) tasks
  simp only [List.getElem?_map] at second
  rw [List.getElem?_range (by omega)] at second
  simp at second

/-- Under every environment in which all goes well, the execution is as it should be exactly
for these pipelines. -/
theorem runsGraph_iff (valid : builder.Valid) (order : IterationOrder (StageId × Stage))
    (sorted : List StageId) :
    (∀ env : Environment, env.Succeeds → ∃ result log,
      executePipeline env ⟨builder.stagesById, builder.edges, sorted⟩ order = .ok (result, log) ∧
        RunsGraph builder result log) ↔ SinglePartitions builder := by
  refine ⟨fun graph => ?_, fun single env succeeds =>
    runsGraph_of_single valid single succeeds order sorted⟩
  intro stage listed
  -- Only the tasks of this stage give anything.
  let env : Environment :=
    ⟨fun _ => true, fun task _ => .ok (if task.stage = stage.id then ["path"] else [])⟩
  have succeeds : env.Succeeds := ⟨fun _ => rfl, fun _ _ => ⟨_, rfl⟩⟩
  obtain ⟨outputs, log, ran, once, after, runs, given⟩ :=
    executePipeline_ok valid succeeds order sorted
  obtain ⟨result, log', ran', graph⟩ := graph env succeeds
  obtain ⟨rfl, rfl⟩ := Prod.mk.inj (Except.ok.inj (ran.symm.trans ran'))
  have member : stage.id ∈ builder.ids := List.mem_map_of_mem listed
  obtain ⟨entry, entered, same⟩ := List.mem_map.mp (once.mem_iff.mpr member)
  constructor
  · exact partitionCount_le_one valid succeeds ran graph stage listed
  · intro some_
    have gives : ∀ entry ∈ log, "path" ∈ outputsOf entry.2 ↔ entry.1 = stage.id := by
      intro other among
      obtain ⟨maker, made, named⟩ := List.mem_map.mp (once.mem_iff.mp (List.mem_map_of_mem among))
      rw [runs other among maker made named, ← named, outputsOf, List.mem_flatMap]
      constructor
      · rintro ⟨run, ran, path⟩
        obtain ⟨i, -, rfl⟩ := List.mem_map.mp ran
        by_contra different
        simp [env, Environment.outputs, Stage.createTask, different] at path
      · intro mine
        have alike : maker = stage := by
          have held := PipelineBuilder.get_stagesById valid.distinct made
          rw [mine, PipelineBuilder.get_stagesById valid.distinct listed] at held
          exact (Option.some.inj held).symm
        refine ⟨_, List.mem_map.mpr ⟨0, List.mem_range.mpr (alike ▸ some_), rfl⟩, ?_⟩
        simp [env, Environment.outputs, Stage.createTask, mine]
    have claimed : "path" ∈ (log.filter fun entry => ¬ builder.HasDependent entry.1).flatMap
        (fun entry => outputsOf entry.2) ↔ ¬ builder.HasDependent stage.id := by
      simp only [List.mem_flatMap, List.mem_filter, decide_eq_true_iff]
      constructor
      · rintro ⟨other, ⟨among, free⟩, path⟩
        rwa [(gives other among).mp path] at free
      · intro free
        exact ⟨entry, ⟨entered, same ▸ free⟩, (gives entry entered).mpr same⟩
    have collected : "path" ∈ finalOutputs ⟨builder.stagesById, builder.edges, sorted⟩ order outputs ↔
        ¬ builder.Named stage.id := by
      rw [(finalOutputs_perm valid.distinct order sorted outputs).mem_iff]
      simp only [List.mem_flatMap, List.mem_filter, decide_eq_true_iff]
      constructor
      · rintro ⟨id, ⟨known, free⟩, path⟩
        obtain ⟨other, among, rfl⟩ := List.mem_map.mp (once.mem_iff.mpr known)
        rw [given other among, gives other among] at path
        rwa [path] at free
      · intro free
        refine ⟨stage.id, ⟨member, free⟩, ?_⟩
        rw [← same, given entry entered]
        exact (gives entry entered).mpr same
    exact not_iff_not.mp (collected.symm.trans (graph.final.mem_iff.trans claimed))

end StageScheduler
end Roboflow.Executor
