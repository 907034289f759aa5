import Roboflow.Library.Machine
import Roboflow.Library.Positions
import Roboflow.Executor.Pipeline

/-! The stage executor of `executor.rs`: the stages of a wave run at once, each with a
semaphore of its own for its tasks. The tasks of a wave are all spawned before the first
of them is awaited; a task that starts earlier is one that starts right after. -/
namespace Roboflow.Executor
open Library

/-- What the code outside does: whether a slot is found for a task, and what the task
gives when it is run. -/
structure Environment where
  granted : Task → Bool
  execute : Task → TaskContext → Except String (List String)

/-- Slots are never refused and every task succeeds. -/
structure Environment.Succeeds (env : Environment) : Prop where
  granted : ∀ task, env.granted task = true
  ok : ∀ task context, ∃ outputs, env.execute task context = .ok outputs

def Environment.outputs (env : Environment) (task : Task) (context : TaskContext) : List String :=
  match env.execute task context with
  | .ok outputs => outputs
  | .error _ => []

theorem Environment.Succeeds.execute (succeeds : Environment.Succeeds env) (task : Task)
    (context : TaskContext) : env.execute task context = .ok (env.outputs task context) := by
  obtain ⟨outputs, given⟩ := succeeds.ok task context
  rw [Environment.outputs, given]

inductive TaskState where
  | waiting
  | running
  | done (error : Option String)
  deriving DecidableEq

structure Handle where
  task : Task
  context : TaskContext
  state : TaskState
  deriving DecidableEq

/-- A stage whose tasks are spawned. -/
structure StageRun where
  stage : StageId
  handles : List Handle
  deriving DecidableEq

/-- The permits of the stage's semaphore that are taken. -/
def StageRun.running (run : StageRun) : Nat := run.handles.countP fun handle => handle.state = .running

structure ExecuteResult where
  executeId : Nat
  stagesCompleted : Nat
  tasksCompleted : Nat
  deriving DecidableEq

inductive Phase where
  | choosing
  | joining
  | returned (result : Except String ExecuteResult)

/-- `past` keeps the stages of the joined waves, which the code drops. -/
structure ExecutorState where
  executeId : Nat
  taskIdCounter : TaskId
  completed : Finset StageId
  totalTasks : Nat
  phase : Phase
  wave : List StageRun
  past : List StageRun

def ExecutorState.opened (executeId : Nat) (taskIdCounter : TaskId) : ExecutorState where
  executeId := executeId
  taskIdCounter := taskIdCounter
  completed := ∅
  totalTasks := 0
  phase := .choosing
  wave := []
  past := []

/-- The tasks that hold a permit. -/
def ExecutorState.running (s : ExecutorState) : Nat := (s.wave.map StageRun.running).sum

namespace StageExecutor

/-- `execute_stage` up to its first wait. -/
def spawnStage (taskIdCounter : TaskId) (id : StageId) (stage : Stage) : StageRun where
  stage := id
  handles := (List.range stage.partitionCount).map fun i =>
    ⟨stage.createTask i, ⟨taskIdCounter + i, stage.id, i⟩, .waiting⟩

def spawnWave (pipeline : Pipeline) : TaskId → List StageId → TaskId × List StageRun
  | taskIdCounter, [] => (taskIdCounter, [])
  | taskIdCounter, id :: rest =>
    match pipeline.stages.get id with
    | none => spawnWave pipeline taskIdCounter rest
    | some stage =>
      let (counter, runs) := spawnWave pipeline (taskIdCounter + stage.partitionCount) rest
      (counter, spawnStage taskIdCounter id stage :: runs)

/-- The end of `execute_stage`, if it is reached: the handles are awaited in order. -/
def awaitHandles : List Handle → Nat → Option (Except String Nat)
  | [], taskCount => some (.ok taskCount)
  | handle :: rest, taskCount =>
    match handle.state with
    | .waiting => none
    | .running => none
    | .done none => awaitHandles rest (taskCount + 1)
    | .done (some error) => some (.error error)

/-- `join_all` over the stages of a wave. -/
def joinAll : List StageRun → Option (List (StageId × Except String Nat))
  | [] => some []
  | run :: rest =>
    match awaitHandles run.handles 0, joinAll rest with
    | some result, some results => some ((run.stage, result) :: results)
    | _, _ => none

def record : List (StageId × Except String Nat) → Finset StageId → Nat →
    Except String (Finset StageId × Nat)
  | [], completed, totalTasks => .ok (completed, totalTasks)
  | (_, .error error) :: _, _, _ => .error error
  | (id, .ok taskCount) :: rest, completed, totalTasks =>
    record rest (insert id completed) (totalTasks + taskCount)

inductive Act where
  | wave
  | start (i j : Nat)
  | finish (i j : Nat)
  | join
  deriving DecidableEq

def place (s : ExecutorState) (i j : Nat) (run : StageRun) (handle : Handle) (state : TaskState) :
    ExecutorState :=
  { s with wave := s.wave.set i { run with handles := run.handles.set j { handle with state := state } } }

/-- What a task leaves in its handle. -/
def failure : Except String (List String) → Option String
  | .ok _ => none
  | .error error => some error

def step (maxConcurrent : Nat) (pipeline : Pipeline) (order : IterationOrder (StageId × Stage))
    (env : Environment) (s : ExecutorState) : Act → Option (ExecutorState × Unit)
  | .wave =>
    match s.phase with
    | .choosing =>
      let ready := pipeline.readyStages order s.completed
      if ready.isEmpty then
        some ({ s with phase := .returned (.ok ⟨s.executeId, s.completed.card, s.totalTasks⟩) }, ())
      else
        let (counter, runs) := spawnWave pipeline s.taskIdCounter ready
        some ({ s with taskIdCounter := counter, wave := runs, phase := .joining }, ())
    | _ => none
  | .start i j =>
    match s.wave[i]? with
    | none => none
    | some run =>
      match run.handles[j]? with
      | none => none
      | some handle =>
        if handle.state = .waiting ∧ run.running < maxConcurrent then
          some (place s i j run handle .running, ())
        else none
  | .finish i j =>
    match s.wave[i]? with
    | none => none
    | some run =>
      match run.handles[j]? with
      | none => none
      | some handle =>
        if handle.state = .running then
          some (place s i j run handle (.done (failure (env.execute handle.task handle.context))), ())
        else none
  | .join =>
    match s.phase with
    | .joining =>
      match joinAll s.wave with
      | none => none
      | some results =>
        match record results s.completed s.totalTasks with
        | .error error => some ({ s with phase := .returned (.error error) }, ())
        | .ok (completed, totalTasks) =>
          some ({ s with
            completed := completed
            totalTasks := totalTasks
            phase := .choosing
            wave := []
            past := s.past ++ s.wave }, ())
    | _ => none

def machine (maxConcurrent : Nat) (pipeline : Pipeline) (order : IterationOrder (StageId × Stage))
    (env : Environment) : Machine ExecutorState Act Unit where
  step := step maxConcurrent pipeline order env

/-! ### What a step can do -/

/-- One task of the wave is put into another state. -/
def Places (s s' : ExecutorState) (run : StageRun) (handle : Handle) (state : TaskState) : Prop :=
  ∃ newer older before after, s.wave = newer ++ run :: older ∧
    run.handles = before ++ handle :: after ∧
    s' = { s with wave := newer ++ { run with
      handles := before ++ { handle with state := state } :: after } :: older }

theorem places_place (state : TaskState) (held : s.wave[i]? = some run)
    (listed : run.handles[j]? = some handle) :
    Places s (place s i j run handle state) run handle state := by
  obtain ⟨newer, older, split, replaced, -⟩ := exists_split held
  obtain ⟨before, after, parts, swapped, -⟩ := exists_split listed
  refine ⟨newer, older, before, after, split, parts, ?_⟩
  rw [place, replaced, swapped]

variable {pipeline : Pipeline} {order : IterationOrder (StageId × Stage)} {env : Environment}
  {s s' : ExecutorState} {maxConcurrent : Nat}

theorem wave_cases (moved : step maxConcurrent pipeline order env s .wave = some (s', out)) :
    s.phase = .choosing ∧
      ((pipeline.readyStages order s.completed = [] ∧
        s' = { s with phase := .returned (.ok ⟨s.executeId, s.completed.card, s.totalTasks⟩) }) ∨
      (pipeline.readyStages order s.completed ≠ [] ∧ s' = { s with
        taskIdCounter := (spawnWave pipeline s.taskIdCounter (pipeline.readyStages order s.completed)).1
        wave := (spawnWave pipeline s.taskIdCounter (pipeline.readyStages order s.completed)).2
        phase := .joining })) := by
  cases phase : s.phase with
  | choosing =>
    simp only [step, phase] at moved
    split at moved
    · rename_i empty
      obtain ⟨rfl, -⟩ := Prod.mk.inj (Option.some.inj moved)
      exact ⟨rfl, .inl ⟨List.isEmpty_iff.mp empty, rfl⟩⟩
    · rename_i some_
      obtain ⟨rfl, -⟩ := Prod.mk.inj (Option.some.inj moved)
      exact ⟨rfl, .inr ⟨fun empty => some_ (List.isEmpty_iff.mpr empty), rfl⟩⟩
  | joining => simp [step, phase] at moved
  | returned result => simp [step, phase] at moved

theorem start_cases (moved : step maxConcurrent pipeline order env s (.start i j) = some (s', out)) :
    ∃ run handle, Places s s' run handle .running ∧ handle.state = .waiting ∧
      run.running < maxConcurrent := by
  simp only [step] at moved
  split at moved
  · cases moved
  · rename_i run held
    split at moved
    · cases moved
    · rename_i handle listed
      split at moved
      · rename_i free
        obtain ⟨rfl, -⟩ := Prod.mk.inj (Option.some.inj moved)
        exact ⟨run, handle, places_place _ held listed, free⟩
      · cases moved

theorem finish_cases (moved : step maxConcurrent pipeline order env s (.finish i j) = some (s', out)) :
    ∃ run handle, Places s s' run handle (.done (failure (env.execute handle.task handle.context))) ∧
      handle.state = .running := by
  simp only [step] at moved
  split at moved
  · cases moved
  · rename_i run held
    split at moved
    · cases moved
    · rename_i handle listed
      split at moved
      · rename_i runs
        obtain ⟨rfl, -⟩ := Prod.mk.inj (Option.some.inj moved)
        exact ⟨run, handle, places_place _ held listed, runs⟩
      · cases moved

/-- A stage ends well when all its tasks have. -/
theorem awaitHandles_ok (ended : awaitHandles handles taskCount = some (.ok count)) :
    (∀ handle ∈ handles, handle.state = .done none) ∧ count = taskCount + handles.length := by
  induction handles generalizing taskCount with
  | nil => exact ⟨by simp, (Except.ok.inj (Option.some.inj ended)).symm⟩
  | cons handle rest ih =>
    cases state : handle.state with
    | waiting => simp [awaitHandles, state] at ended
    | running => simp [awaitHandles, state] at ended
    | done error =>
      cases error with
      | some error => simp [awaitHandles, state] at ended
      | none =>
        simp only [awaitHandles, state] at ended
        obtain ⟨well, rfl⟩ := ih ended
        refine ⟨?_, ?_⟩
        · intro other member
          rcases List.mem_cons.mp member with rfl | later
          · exact state
          · exact well other later
        · rw [List.length_cons]
          omega

theorem awaitHandles_of_done (well : ∀ handle ∈ handles, handle.state = .done none) :
    awaitHandles handles taskCount = some (.ok (taskCount + handles.length)) := by
  induction handles generalizing taskCount with
  | nil => rfl
  | cons handle rest ih =>
    simp only [awaitHandles, well handle List.mem_cons_self]
    rw [ih fun other member => well other (List.mem_cons_of_mem _ member), List.length_cons]
    congr 2
    omega

theorem awaitHandles_error (ended : awaitHandles handles taskCount = some (.error error)) :
    ∃ handle ∈ handles, handle.state = .done (some error) := by
  induction handles generalizing taskCount with
  | nil => cases ended
  | cons handle rest ih =>
    cases state : handle.state with
    | waiting => simp [awaitHandles, state] at ended
    | running => simp [awaitHandles, state] at ended
    | done failed =>
      cases failed with
      | some failed =>
        simp only [awaitHandles, state, Option.some.injEq, Except.error.injEq] at ended
        exact ⟨handle, List.mem_cons_self, ended ▸ state⟩
      | none =>
        simp only [awaitHandles, state] at ended
        obtain ⟨other, member, cause⟩ := ih ended
        exact ⟨other, List.mem_cons_of_mem _ member, cause⟩

/-- The tasks of a wave. -/
def spawnedTasks (wave : List StageRun) : Nat := (wave.map fun run => run.handles.length).sum

theorem joinAll_record_ok (joined : joinAll wave = some results)
    (recorded : record results completed totalTasks = .ok (completed', totalTasks')) :
    (∀ run ∈ wave, ∀ handle ∈ run.handles, handle.state = .done none) ∧
      completed' = completed ∪ (wave.map (·.stage)).toFinset ∧
      totalTasks' = totalTasks + spawnedTasks wave := by
  induction wave generalizing results completed totalTasks with
  | nil =>
    obtain rfl := Option.some.inj joined
    obtain ⟨rfl, rfl⟩ := Prod.mk.inj (Except.ok.inj recorded)
    simp [spawnedTasks]
  | cons run rest ih =>
    simp only [joinAll] at joined
    split at joined
    · rename_i result results' ended later
      obtain rfl := Option.some.inj joined
      cases result with
      | error error => cases recorded
      | ok count =>
        obtain ⟨well, rfl⟩ := awaitHandles_ok ended
        obtain ⟨others, rfl, rfl⟩ := ih later recorded
        refine ⟨?_, ?_, ?_⟩
        · intro other member
          rcases List.mem_cons.mp member with rfl | below
          · exact well
          · exact others other below
        · ext id
          simp only [Finset.mem_union, Finset.mem_insert, List.map_cons, List.toFinset_cons]
          tauto
        · simp only [spawnedTasks, List.map_cons, List.sum_cons]
          omega
    · cases joined

theorem joinAll_record_error (joined : joinAll wave = some results)
    (recorded : record results completed totalTasks = .error error) :
    ∃ run ∈ wave, ∃ handle ∈ run.handles, handle.state = .done (some error) := by
  induction wave generalizing results completed totalTasks with
  | nil =>
    obtain rfl := Option.some.inj joined
    cases recorded
  | cons run rest ih =>
    simp only [joinAll] at joined
    split at joined
    · rename_i result results' ended later
      obtain rfl := Option.some.inj joined
      cases result with
      | error failed =>
        obtain rfl := Except.error.inj recorded
        exact ⟨run, List.mem_cons_self, awaitHandles_error ended⟩
      | ok count =>
        obtain ⟨other, member, cause⟩ := ih later recorded
        exact ⟨other, List.mem_cons_of_mem _ member, cause⟩
    · cases joined

theorem joinAll_of_done (well : ∀ run ∈ wave, ∀ handle ∈ run.handles, handle.state = .done none) :
    joinAll wave = some (wave.map fun run => (run.stage, .ok run.handles.length)) := by
  induction wave with
  | nil => rfl
  | cons run rest ih =>
    simp only [joinAll, awaitHandles_of_done (well run List.mem_cons_self), Nat.zero_add]
    rw [ih fun other member => well other (List.mem_cons_of_mem _ member)]
    rfl

theorem record_of_ok (runs : List StageRun) (completed : Finset StageId) (totalTasks : Nat) :
    record (runs.map fun run => (run.stage, .ok run.handles.length)) completed totalTasks =
      .ok (completed ∪ (runs.map (·.stage)).toFinset, totalTasks + spawnedTasks runs) := by
  induction runs generalizing completed totalTasks with
  | nil => simp [record, spawnedTasks]
  | cons run rest ih =>
    simp only [List.map_cons, record, ih, spawnedTasks, List.sum_cons, List.toFinset_cons]
    rw [Finset.insert_union, Finset.union_insert, Nat.add_assoc]

/-- The wave is over: its stages are completed, or one of them has failed. -/
theorem join_cases (moved : step maxConcurrent pipeline order env s .join = some (s', out)) :
    s.phase = .joining ∧
      ((∃ error, (∃ run ∈ s.wave, ∃ handle ∈ run.handles, handle.state = .done (some error)) ∧
        s' = { s with phase := .returned (.error error) }) ∨
      ((∀ run ∈ s.wave, ∀ handle ∈ run.handles, handle.state = .done none) ∧ s' = { s with
        completed := s.completed ∪ (s.wave.map (·.stage)).toFinset
        totalTasks := s.totalTasks + spawnedTasks s.wave
        phase := .choosing
        wave := []
        past := s.past ++ s.wave })) := by
  cases phase : s.phase with
  | choosing => simp [step, phase] at moved
  | returned result => simp [step, phase] at moved
  | joining =>
    refine ⟨rfl, ?_⟩
    simp only [step, phase] at moved
    split at moved
    · cases moved
    · rename_i results joined
      split at moved
      · rename_i error failed
        obtain ⟨rfl, -⟩ := Prod.mk.inj (Option.some.inj moved)
        exact .inl ⟨error, joinAll_record_error joined failed, rfl⟩
      · rename_i completed totalTasks recorded
        obtain ⟨rfl, -⟩ := Prod.mk.inj (Option.some.inj moved)
        obtain ⟨well, rfl, rfl⟩ := joinAll_record_ok joined recorded
        exact .inr ⟨well, rfl⟩

/-! ### What every step keeps -/

variable {run : StageRun} {handle : Handle}

/-- One task for every partition, which is the one its context names. -/
def Shaped (run : StageRun) (stage : Stage) : Prop :=
  run.handles.map (fun handle => (handle.task, handle.context.stageId, handle.context.partition)) =
    (List.range stage.partitionCount).map fun i => (stage.createTask i, stage.id, i)

theorem Shaped.length (shaped : Shaped run stage) : run.handles.length = stage.partitionCount := by
  have same := congrArg List.length shaped
  simpa using same

theorem shaped_spawnStage (taskIdCounter : TaskId) (id : StageId) (stage : Stage) :
    Shaped (spawnStage taskIdCounter id stage) stage := by
  simp [Shaped, spawnStage]

theorem Shaped.place (shaped : Shaped run stage) (split : run.handles = before ++ handle :: after) :
    Shaped { run with handles := before ++ { handle with state := state } :: after } stage := by
  rw [Shaped, split] at shaped
  simpa [Shaped] using shaped

/-- The tasks of a stage are spawned, and no more of them run than it has permits. -/
structure Spawned (maxConcurrent : Nat) (pipeline : Pipeline) (run : StageRun) (stage : Stage) : Prop where
  held : pipeline.stages.get run.stage = some stage
  shaped : Shaped run stage
  bounded : run.running ≤ maxConcurrent

theorem running_spawnStage (taskIdCounter : TaskId) (id : StageId) (stage : Stage) :
    (spawnStage taskIdCounter id stage).running = 0 := by
  rw [StageRun.running, List.countP_eq_zero]
  intro handle member
  obtain ⟨i, -, rfl⟩ := List.mem_map.mp member
  simp

theorem spawned_spawnWave (ids : List StageId) (taskIdCounter : TaskId) :
    ∀ run ∈ (spawnWave pipeline taskIdCounter ids).2, ∃ stage, Spawned maxConcurrent pipeline run stage := by
  induction ids generalizing taskIdCounter with
  | nil => simp [spawnWave]
  | cons id rest ih =>
    intro run member
    cases held : pipeline.stages.get id with
    | none =>
      simp only [spawnWave, held] at member
      exact ih taskIdCounter run member
    | some stage =>
      simp only [spawnWave, held] at member
      rcases List.mem_cons.mp member with rfl | later
      · refine ⟨stage, held, shaped_spawnStage .., ?_⟩
        rw [running_spawnStage]
        exact Nat.zero_le _
      · exact ih _ run later

variable (pipeline) in
theorem waiting_spawnWave (ids : List StageId) (taskIdCounter : TaskId) :
    ∀ run ∈ (spawnWave pipeline taskIdCounter ids).2, ∀ handle ∈ run.handles, handle.state = .waiting := by
  induction ids generalizing taskIdCounter with
  | nil => simp [spawnWave]
  | cons id rest ih =>
    intro run member handle listed
    cases held : pipeline.stages.get id with
    | none =>
      simp only [spawnWave, held] at member
      exact ih taskIdCounter run member handle listed
    | some stage =>
      simp only [spawnWave, held] at member
      rcases List.mem_cons.mp member with rfl | later
      · obtain ⟨i, -, rfl⟩ := List.mem_map.mp listed
        rfl
      · exact ih _ run later handle listed

theorem stages_spawnWave (known : ∀ id ∈ ids, (pipeline.stages.get id).isSome) :
    (spawnWave pipeline taskIdCounter ids).2.map (·.stage) = ids := by
  induction ids generalizing taskIdCounter with
  | nil => rfl
  | cons id rest ih =>
    obtain ⟨stage, held⟩ := Option.isSome_iff_exists.mp (known id List.mem_cons_self)
    simp only [spawnWave, held, List.map_cons]
    rw [ih fun other member => known other (List.mem_cons_of_mem _ member)]
    rfl

/-- A wave is what is ready. -/
theorem stages_wave (pipeline : Pipeline) (order : IterationOrder (StageId × Stage))
    (completed : Finset StageId) (taskIdCounter : TaskId) :
    (spawnWave pipeline taskIdCounter (pipeline.readyStages order completed)).2.map (·.stage) =
      pipeline.readyStages order completed :=
  stages_spawnWave fun _ member => (Pipeline.mem_readyStages.mp member).1

/-- What holds of the stages spawned and of those joined, in every state of every run. -/
structure Going (maxConcurrent : Nat) (pipeline : Pipeline) (order : IterationOrder (StageId × Stage))
    (s : ExecutorState) : Prop where
  idle : s.phase = .choosing → s.wave = []
  ready : s.wave ≠ [] → s.wave.map (·.stage) = pipeline.readyStages order s.completed
  spawned : ∀ run ∈ s.wave, ∃ stage, Spawned maxConcurrent pipeline run stage
  past : ∀ run ∈ s.past, (∃ stage, Spawned maxConcurrent pipeline run stage) ∧
    ∀ handle ∈ run.handles, handle.state = .done none
  completed : s.completed = (s.past.map (·.stage)).toFinset
  once : (s.past.map (·.stage)).Nodup
  returned : ∀ result, s.phase = .returned (.ok result) →
    pipeline.readyStages order s.completed = [] ∧ s.wave = []

/-- A task that changes its state leaves the rest as it is, as long as its stage has the
permits. -/
theorem Going.place (going : Going maxConcurrent pipeline order s)
    (placed : Places s s' run handle state)
    (bounded : ∀ before after, run.handles = before ++ handle :: after →
      StageRun.running { run with handles := before ++ { handle with state := state } :: after } ≤
        maxConcurrent) :
    Going maxConcurrent pipeline order s' := by
  obtain ⟨newer, older, before, after, split, parts, rfl⟩ := placed
  have some_ : s.wave ≠ [] := by
    rw [split]
    simp
  exact {
    idle := fun choosing => absurd (going.idle choosing) some_
    ready := by
      intro _
      have same := going.ready some_
      rw [split] at same
      simpa using same
    spawned := by
      intro other member
      simp only [List.mem_append, List.mem_cons] at member
      rcases member with early | rfl | late
      · exact going.spawned other (by rw [split]; simp [early])
      · obtain ⟨stage, held, shaped, -⟩ := going.spawned run (by rw [split]; simp)
        exact ⟨stage, held, shaped.place parts, bounded before after parts⟩
      · exact going.spawned other (by rw [split]; simp [late])
    past := going.past
    completed := going.completed
    once := going.once
    returned := fun result phase => absurd (going.returned result phase).2 some_ }

/-- What the count of one stage becomes. -/
theorem running_place (split : run.handles = before ++ handle :: after) (state : TaskState) :
    StageRun.running { run with handles := before ++ { handle with state := state } :: after } +
        (if handle.state = .running then 1 else 0) =
      run.running + if state = .running then 1 else 0 := by
  simp only [StageRun.running, split, List.countP_append, List.countP_cons, decide_eq_true_eq]
  omega

theorem Going.step (going : Going maxConcurrent pipeline order s)
    (moved : step maxConcurrent pipeline order env s a = some (s', out)) :
    Going maxConcurrent pipeline order s' := by
  cases a with
  | wave =>
    obtain ⟨choosing, ⟨empty, rfl⟩ | ⟨some_, rfl⟩⟩ := wave_cases moved
    · exact { going with
        idle := nofun
        returned := fun _ _ => ⟨empty, going.idle choosing⟩ }
    · exact {
        idle := nofun
        ready := fun _ => stages_wave ..
        spawned := spawned_spawnWave _ _
        past := going.past
        completed := going.completed
        once := going.once
        returned := nofun }
  | start i j =>
    obtain ⟨run, handle, placed, waiting, free⟩ := start_cases moved
    refine going.place placed fun before after split => ?_
    have count := running_place split .running
    simp only [waiting, reduceCtorEq, if_false, if_true] at count
    omega
  | finish i j =>
    obtain ⟨run, handle, placed, runs⟩ := finish_cases moved
    refine going.place placed fun before after split => ?_
    obtain ⟨newer, older, -, -, held, -, -⟩ := placed
    obtain ⟨stage, spawned⟩ := going.spawned run (by rw [held]; simp)
    have count := running_place split (.done (failure (env.execute handle.task handle.context)))
    have bound := spawned.bounded
    simp only [runs, reduceCtorEq, if_false, if_true] at count
    omega
  | join =>
    obtain ⟨joining, ⟨error, -, rfl⟩ | ⟨well, rfl⟩⟩ := join_cases moved
    · exact { going with
        idle := nofun
        returned := nofun }
    · have stages : ∀ id ∈ s.wave.map (·.stage), id ∈ pipeline.readyStages order s.completed := by
        intro id member
        have some_ : s.wave ≠ [] := by
          rintro empty
          simp [empty] at member
        exact going.ready some_ ▸ member
      have fresh : (s.wave.map (·.stage)).Nodup := by
        by_cases empty : s.wave = []
        · simp [empty]
        · rw [going.ready empty]
          exact Pipeline.readyStages_nodup ..
      exact {
        idle := fun _ => rfl
        ready := fun some_ => absurd rfl some_
        spawned := by simp
        past := by
          intro run member
          rcases List.mem_append.mp member with old | new
          · exact going.past run old
          · exact ⟨going.spawned run new, well run new⟩
        completed := by
          rw [going.completed, List.map_append, List.toFinset_append]
        once := by
          rw [List.map_append, List.nodup_append]
          refine ⟨going.once, fresh, ?_⟩
          rintro id old other new rfl
          have left := (Pipeline.mem_readyStages.mp (stages id new)).2.1
          rw [going.completed, List.mem_toFinset] at left
          exact left old
        returned := nofun }

theorem going_of_run (run : Run (machine maxConcurrent pipeline order env)
    (.opened executeId taskIdCounter) history s) : Going maxConcurrent pipeline order s := by
  refine run.invariant ?_ fun s a s' out going moved => going.step moved
  exact {
    idle := fun _ => rfl
    ready := fun some_ => absurd rfl some_
    spawned := by simp [ExecutorState.opened]
    past := by simp [ExecutorState.opened]
    completed := rfl
    once := List.nodup_nil
    returned := nofun }

end StageExecutor
end Roboflow.Executor
