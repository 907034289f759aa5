import Roboflow.Lerobot.FrameCounts
import Roboflow.Library.GoodSteps
import Roboflow.Library.Interning

/-! The tasks that episodes refer to: `register_task` of `metadata.rs`, which numbers texts, and
`finish_episode` of `format_writer_impl.rs`, which records the index of the episode as that of its task.
Here is when a number in `episodes.jsonl` has its line in `tasks.jsonl`. -/
namespace Roboflow.Lerobot
open Library
open Roboflow.Alignment (AlignedFrame)

variable {Value : Type}

/-! ### Tasks -/

/-- `TaskInfo`. -/
structure TaskInfo where
  taskIndex : Nat
  task : String
  deriving DecidableEq

/-- `register_task`: the index, and the tasks after it. -/
def registerTask (tasks : Kv String Nat) (task : String) : Nat × Kv String Nat :=
  let len := tasks.entries.length
  match tasks.get task with
  | some index => (index, tasks)
  | none => (len, tasks.put task len)

/-- `write_tasks_jsonl`: the lines of the file, which is not written without tasks. -/
def writeTasksJsonl (tasks : Kv String Nat) : Option (List TaskInfo) :=
  if tasks.entries.isEmpty then none
  else some ((tasks.entries.map fun entry => ⟨entry.2, entry.1⟩).mergeSort
    fun line line' => line.taskIndex ≤ line'.taskIndex)

/-- The lines of `tasks.jsonl`, none without the file. -/
def taskLines (tasks : Kv String Nat) : List TaskInfo := (writeTasksJsonl tasks).getD []

/-! ### The writer -/

/-- A writer with the tasks of its metadata. -/
structure TaskedWriter (Value : Type) where
  writer : LerobotWriter Value
  tasks : Kv String Nat

inductive TaskedCall (Value : Type) where
  | registerTask (task : String)
  | startEpisode (taskIndex : Option Nat)
  | writeFrame (frame : AlignedFrame Value)
  | finishEpisode
  | finalize

inductive TaskedOut where
  | registered (index : Nat)
  | ended (ok : Bool)
  deriving DecidableEq

/-- `register_task` and the calls of `FormatWriter`. The task index that an episode is started with is not
used, and a finish passes the index of the episode for it. -/
def taskedMachine [Zero Value] : Machine (TaskedWriter Value) (TaskedCall Value) TaskedOut where
  step s call :=
    match call with
    | .registerTask task =>
      let (index, tasks) := registerTask s.tasks task
      some ({ s with tasks := tasks }, .registered index)
    | .startEpisode _ => some ({ s with writer := s.writer.startEpisode }, .ended true)
    | .writeFrame frame => some ({ s with writer := s.writer.writeFrame frame }, .ended true)
    | .finishEpisode =>
      match s.writer.finishEpisode with
      | .ok (w, _) => some ({ s with writer := w }, .ended true)
      | .error _ => some (s, .ended false)
    | .finalize =>
      match s.writer.finalize with
      | .ok (w, _) => some ({ s with writer := w }, .ended true)
      | .error _ => some ({ s with writer := s.writer.flushVideoSegment }, .ended false)

abbrev TaskedHistory (Value : Type) := History (TaskedWriter Value) (TaskedCall Value) TaskedOut

/-- The registrations with the indices they returned, newest first. -/
def registrations (history : TaskedHistory Value) : List (String × Nat) :=
  history.filterMap fun e =>
    match e.act, e.out with
    | .registerTask task, .registered index => some (task, index)
    | _, _ => none

/-! ### What is promised -/

/-- Registered texts have one index each, from zero on, and these are the lines of the file. -/
structure TasksNumbered (answers : List (String × Nat)) (tasks : Kv String Nat) : Prop where
  same : ∀ a ∈ answers, ∀ b ∈ answers, a.1 = b.1 ↔ a.2 = b.2
  dense : ∀ i, (∃ a ∈ answers, a.2 = i) ↔ i < (answers.map Prod.fst).toFinset.card
  lines : ∀ line, line ∈ taskLines tasks ↔ (line.task, line.taskIndex) ∈ answers

/-- Every task index in `episodes.jsonl` has its line in `tasks.jsonl`. -/
def ReferencesResolve (s : TaskedWriter Value) : Prop :=
  ∀ info ∈ s.writer.metadata.episodes, ∀ index ∈ info.tasks,
    ∃ line ∈ taskLines s.tasks, line.taskIndex = index

/-- An episode that is recorded has an index below the number of tasks registered by then. -/
def IndexRegistered (s : TaskedWriter Value) : TaskedCall Value → Prop
  | .finishEpisode => (∃ frame ∈ s.writer.frameData, frame.observationState ≠ none) →
      s.writer.episodeIndex < s.tasks.entries.length
  | _ => True

/-- A writer that has just been made. -/
def newTasked (flushing : FlushingConfig) (decode : Decoder) : TaskedWriter Value :=
  ⟨.newLocal flushing decode, .empty⟩

/-! ### The numbers of tasks -/

/-- The texts in the order of their numbers. -/
structure Numbered (known : List String) (answers : List (String × Nat)) (tasks : Kv String Nat) : Prop where
  distinct : known.Nodup
  held : ∀ task i, tasks.get task = some i ↔ known[i]? = some task
  answered : ∀ task i, (task, i) ∈ answers ↔ known[i]? = some task

section
variable {known : List String} {answers : List (String × Nat)} {tasks : Kv String Nat}

theorem Numbered.count (numbered : Numbered known answers tasks) : tasks.entries.length = known.length := by
  have perm : (tasks.entries.map Prod.fst).Perm known := by
    rw [List.perm_ext_iff_of_nodup _ numbered.distinct]
    · intro task
      rw [List.mem_map, List.mem_iff_getElem?]
      constructor
      · rintro ⟨⟨key, i⟩, member, rfl⟩
        exact ⟨i, (numbered.held key i).mp (tasks.mem_entries.mp member)⟩
      · rintro ⟨i, found⟩
        exact ⟨(task, i), tasks.mem_entries.mpr ((numbered.held task i).mpr found), rfl⟩
    · rw [List.Nodup, List.pairwise_map]
      exact tasks.sorted.imp fun before => before.ne
  rw [← perm.length_eq, List.length_map]

theorem numbered_empty : Numbered [] [] .empty where
  distinct := List.nodup_nil
  held task i := by simp
  answered task i := by simp

/-- A number after one more text. -/
theorem getElem?_snoc_iff (known : List String) (task other : String) (i : Nat) :
    (known ++ [task])[i]? = some other ↔ known[i]? = some other ∨ i = known.length ∧ other = task := by
  rcases Nat.lt_trichotomy i known.length with below | same | above
  · rw [List.getElem?_append_left below]
    constructor
    · exact Or.inl
    · rintro (found | ⟨same, _⟩)
      · exact found
      · exact absurd same below.ne
  · rw [same, List.getElem?_append_right le_rfl, Nat.sub_self, List.getElem?_eq_none le_rfl]
    simp [eq_comm]
  · rw [List.getElem?_eq_none (by simp; omega), List.getElem?_eq_none above.le]
    simp [above.ne']

/-- A registration numbers its text, unless it has a number. -/
theorem Numbered.register (numbered : Numbered known answers tasks) (task : String) :
    Numbered (intern known task) ((task, (registerTask tasks task).1) :: answers)
      (registerTask tasks task).2 := by
  unfold registerTask
  cases found : tasks.get task with
  | some index =>
    have numberOf := (numbered.held task index).mp found
    rw [intern_of_mem (List.mem_of_getElem? numberOf)]
    refine ⟨numbered.distinct, numbered.held, ?_⟩
    intro other i
    rw [List.mem_cons, numbered.answered]
    constructor
    · rintro (same | listed)
      · cases same
        exact numberOf
      · exact listed
    · exact Or.inr
  | none =>
    have new : task ∉ known := by
      intro member
      obtain ⟨i, numberOf⟩ := List.mem_iff_getElem?.mp member
      rw [(numbered.held task i).mpr numberOf] at found
      cases found
    dsimp only
    rw [intern_of_notMem new, numbered.count]
    refine ⟨?_, ?_, ?_⟩
    · rw [← intern_of_notMem new]
      exact intern_nodup numbered.distinct task
    · intro other i
      rw [Kv.get_put, getElem?_snoc_iff]
      by_cases same : other = task
      · have unnumbered : known[i]? ≠ some other := by
          intro numberOf
          rw [same] at numberOf
          exact new (List.mem_of_getElem? numberOf)
        rw [if_pos same, Option.some_inj]
        constructor
        · intro equal
          exact .inr ⟨equal.symm, same⟩
        · rintro (numberOf | ⟨equal, _⟩)
          · exact absurd numberOf unnumbered
          · exact equal.symm
      · rw [if_neg same, numbered.held]
        constructor
        · exact Or.inl
        · rintro (numberOf | ⟨_, equal⟩)
          · exact numberOf
          · exact absurd equal same
    · intro other i
      rw [List.mem_cons, numbered.answered, getElem?_snoc_iff]
      constructor
      · rintro (same | listed)
        · cases same
          exact .inr ⟨rfl, rfl⟩
        · exact .inl listed
      · rintro (listed | ⟨rfl, rfl⟩)
        · exact .inr listed
        · exact .inl rfl

theorem mem_taskLines {line : TaskInfo} : line ∈ taskLines tasks ↔ tasks.get line.task = some line.taskIndex := by
  have listed : line ∈ tasks.entries.map (fun entry => (⟨entry.2, entry.1⟩ : TaskInfo)) ↔
      tasks.get line.task = some line.taskIndex := by
    rw [List.mem_map, ← tasks.mem_entries]
    constructor
    · rintro ⟨⟨task, index⟩, member, rfl⟩
      exact member
    · intro member
      exact ⟨_, member, rfl⟩
  unfold taskLines writeTasksJsonl
  by_cases nothing : tasks.entries = []
  · rw [← listed, nothing]
    simp
  · rw [if_neg (by simpa using nothing), Option.getD_some, List.mem_mergeSort, listed]

theorem Numbered.tasksNumbered (numbered : Numbered known answers tasks) : TasksNumbered answers tasks where
  same := by
    rintro ⟨task, i⟩ member ⟨task', i'⟩ member'
    have numberOf := (numbered.answered task i).mp member
    have numberOf' := (numbered.answered task' i').mp member'
    constructor
    · intro same
      dsimp only at same
      rw [← same, ← numberOf] at numberOf'
      obtain ⟨within, _⟩ := List.getElem?_eq_some_iff.mp numberOf
      exact (List.getElem?_inj within numbered.distinct).mp numberOf'.symm
    · intro same
      dsimp only at same
      rw [← same, numberOf] at numberOf'
      exact Option.some.inj numberOf'
  dense := by
    have texts : (answers.map Prod.fst).toFinset = known.toFinset := by
      ext task
      rw [List.mem_toFinset, List.mem_toFinset, List.mem_map, List.mem_iff_getElem?]
      constructor
      · rintro ⟨⟨key, i⟩, member, rfl⟩
        exact ⟨i, (numbered.answered key i).mp member⟩
      · rintro ⟨i, found⟩
        exact ⟨(task, i), (numbered.answered task i).mpr found, rfl⟩
    intro i
    rw [texts, List.toFinset_card_of_nodup numbered.distinct]
    constructor
    · rintro ⟨⟨task, index⟩, member, rfl⟩
      exact (List.getElem?_eq_some_iff.mp ((numbered.answered task index).mp member)).1
    · intro within
      exact ⟨_, (numbered.answered known[i] i).mpr (List.getElem?_eq_getElem within), rfl⟩
  lines := by
    intro line
    rw [mem_taskLines, numbered.held, numbered.answered]

/-- The lines have the numbers below their count. -/
theorem Numbered.line_iff (numbered : Numbered known answers tasks) (index : Nat) :
    (∃ line ∈ taskLines tasks, line.taskIndex = index) ↔ index < tasks.entries.length := by
  rw [numbered.count]
  constructor
  · rintro ⟨line, member, rfl⟩
    exact (List.getElem?_eq_some_iff.mp ((numbered.held _ _).mp (mem_taskLines.mp member))).1
  · intro within
    refine ⟨⟨index, known[index]⟩, mem_taskLines.mpr ?_, rfl⟩
    exact (numbered.held _ _).mpr (List.getElem?_eq_getElem within)

end

/-! ### What a call records -/

namespace LerobotWriter
variable [Zero Value] {w w' : LerobotWriter Value}

theorem finishEpisodeWith_tasks {taskIndex : Option Nat} (finished : w.finishEpisodeWith taskIndex = .ok w') :
    (∀ frame ∈ w.frameData, frame.observationState = none) ∧ w'.metadata.episodes = w.metadata.episodes ∨
      (∃ frame ∈ w.frameData, frame.observationState ≠ none) ∧ w'.metadata.episodes =
        w.metadata.episodes ++ [⟨w.episodeIndex, w.frameData.length, taskIndex.toList⟩] := by
  unfold finishEpisodeWith at finished
  by_cases blank : w.frameData = []
  · rw [if_pos (by simp [blank])] at finished
    cases finished
    exact .inl ⟨by simp [blank], rfl⟩
  · have full : w.frameData.isEmpty = false := by simpa using blank
    cases made : episodeRows w.frameData w.episodeIndex w.chunkIndex with
    | error message => simp [writeEpisodeParquet, full, made, bind, Except.bind] at finished
    | ok rows =>
      have observed := (episodeRows_ok_iff _ _ _).1 ⟨rows, made⟩
      simp only [writeEpisodeParquet, full, made, bind, Except.bind, Bool.false_eq_true, if_false,
        Except.ok.injEq] at finished
      subst finished
      exact .inr ⟨observed, rfl⟩

/-- A finish is refused for frames without an observation state only. -/
theorem finishEpisodeWith_refused {taskIndex : Option Nat} {message : String}
    (refused : w.finishEpisodeWith taskIndex = .error message) :
    ∀ frame ∈ w.frameData, frame.observationState = none := by
  by_contra observed
  push Not at observed
  obtain ⟨rows, made⟩ := (episodeRows_ok_iff w.frameData w.episodeIndex w.chunkIndex).2 observed
  have full : w.frameData.isEmpty = false := by
    obtain ⟨frame, member, _⟩ := observed
    simpa using List.ne_nil_of_mem member
  simp [finishEpisodeWith, writeEpisodeParquet, full, made, bind, Except.bind] at refused

/-- What `finalize` records refers to no task. -/
theorem finalize_tasks {stats : WriterStats} (finalized : w.finalize = .ok (w', stats)) :
    ∀ info ∈ w'.metadata.episodes, info ∈ w.metadata.episodes ∨ info.tasks = [] := by
  have flushed := w.flushVideoSegment_books.episodes
  rw [finalize_eq] at finalized
  cases written : w.flushVideoSegment.lastRows with
  | error message => simp [written, Except.bind] at finalized
  | ok w₁ =>
    cases merged : w₁.mergePendingSegments with
    | error message => simp [written, merged, Except.bind] at finalized
    | ok w₂ =>
      simp only [written, merged, Except.bind, Except.ok.injEq, Prod.mk.injEq] at finalized
      obtain ⟨rfl, -⟩ := finalized
      rw [(mergePendingSegments_books merged).episodes]
      unfold lastRows at written
      by_cases blank : w.flushVideoSegment.frameData = []
      · rw [if_pos (by simp [blank])] at written
        cases written
        intro info member
        rw [flushed] at member
        exact .inl member
      · have full : w.flushVideoSegment.frameData.isEmpty = false := by simpa using blank
        cases made : episodeRows w.flushVideoSegment.frameData w.flushVideoSegment.episodeIndex
            w.flushVideoSegment.chunkIndex with
        | error message => simp [writeEpisodeParquet, full, made, bind, Except.bind] at written
        | ok rows =>
          simp only [writeEpisodeParquet, full, made, bind, Except.bind, Bool.false_eq_true, if_false,
            Except.ok.injEq] at written
          subst written
          intro info member
          rcases List.mem_append.mp member with earlier | own
          · rw [flushed] at earlier
            exact .inl earlier
          · rw [List.mem_singleton.mp own]
            exact .inr rfl

end LerobotWriter

/-- What a call does to the tasks and to the references. -/
inductive TaskedMoves (s s' : TaskedWriter Value) : TaskedCall Value → TaskedOut → Prop where
  | registered (after : s' = { s with tasks := (registerTask s.tasks task).2 }) :
      TaskedMoves s s' (.registerTask task) (.registered (registerTask s.tasks task).1)
  | unreferring (other : ∀ task, call ≠ .registerTask task) (same : s'.tasks = s.tasks)
      (only : ∀ info ∈ s'.writer.metadata.episodes,
        info ∈ s.writer.metadata.episodes ∨ info.tasks = [])
      (unobserved : call = .finishEpisode → ∀ frame ∈ s.writer.frameData, frame.observationState = none) :
      TaskedMoves s s' call out
  | recorded (same : s'.tasks = s.tasks)
      (observed : ∃ frame ∈ s.writer.frameData, frame.observationState ≠ none)
      (entered : s'.writer.metadata.episodes = s.writer.metadata.episodes ++
        [⟨s.writer.episodeIndex, s.writer.frameData.length, [s.writer.episodeIndex]⟩]) :
      TaskedMoves s s' .finishEpisode out

theorem taskedMachine_moves [Zero Value] {s s' : TaskedWriter Value} {call : TaskedCall Value}
    {out : TaskedOut} (moved : taskedMachine.step s call = some (s', out)) : TaskedMoves s s' call out := by
  cases call with
  | registerTask task =>
    cases moved
    exact .registered rfl
  | startEpisode taskIndex =>
    cases moved
    exact .unreferring (by simp) rfl (fun info member => .inl member) (by simp)
  | writeFrame frame =>
    cases moved
    have wrote := s.writer.writeFrameAt_wrote frame (s.writer.addFrame frame).flushes
    refine .unreferring (by simp) rfl ?_ (by simp)
    intro info member
    have kept := congrArg MetadataCollector.episodes wrote.metadata
    exact .inl (kept ▸ member)
  | finishEpisode =>
    simp only [taskedMachine, LerobotWriter.finishEpisode] at moved
    cases result : s.writer.finishEpisodeWith (some s.writer.episodeIndex) with
    | error message =>
      simp only [result, bind, Except.bind, Option.some.injEq, Prod.mk.injEq] at moved
      obtain ⟨rfl, rfl⟩ := moved
      exact .unreferring (by simp) rfl (fun info member => .inl member)
        (fun _ => LerobotWriter.finishEpisodeWith_refused result)
    | ok w =>
      simp only [result, bind, Except.bind, Option.some.injEq, Prod.mk.injEq] at moved
      obtain ⟨rfl, rfl⟩ := moved
      rcases LerobotWriter.finishEpisodeWith_tasks result with ⟨unobserved, same⟩ | ⟨observed, entered⟩
      · refine .unreferring (by simp) rfl ?_ (fun _ => unobserved)
        intro info member
        dsimp only at member
        rw [same] at member
        exact .inl member
      · exact .recorded rfl observed entered
  | finalize =>
    simp only [taskedMachine] at moved
    cases result : s.writer.finalize with
    | error message =>
      simp only [result, Option.some.injEq, Prod.mk.injEq] at moved
      obtain ⟨rfl, rfl⟩ := moved
      refine .unreferring (by simp) rfl ?_ (by simp)
      intro info member
      dsimp only at member
      rw [s.writer.flushVideoSegment_books.episodes] at member
      exact .inl member
    | ok done =>
      simp only [result, Option.some.injEq, Prod.mk.injEq] at moved
      obtain ⟨rfl, rfl⟩ := moved
      exact .unreferring (by simp) rfl (LerobotWriter.finalize_tasks result) (by simp)

/-! ### References -/

section
variable {s s' : TaskedWriter Value}

/-- The tasks are numbered, and every reference resolves. -/
def Resolved (s : TaskedWriter Value) : Prop :=
  (∃ known answers, Numbered known answers s.tasks) ∧ ReferencesResolve s

theorem references_of_unreferring (resolve : ReferencesResolve s) (same : s'.tasks = s.tasks)
    (only : ∀ info ∈ s'.writer.metadata.episodes, info ∈ s.writer.metadata.episodes ∨ info.tasks = []) :
    ReferencesResolve s' := by
  intro info member index listed
  rw [same]
  rcases only info member with earlier | nothing
  · exact resolve info earlier index listed
  · rw [nothing] at listed
    cases listed

/-- A reference that resolves still does after a registration. -/
theorem references_of_registered (resolved : Resolved s) (task : String) :
    ReferencesResolve { s with tasks := (registerTask s.tasks task).2 } := by
  obtain ⟨⟨known, answers, numbered⟩, resolve⟩ := resolved
  intro info member index listed
  have more := numbered.register task
  obtain ⟨line, found, same⟩ := resolve info member index listed
  have number := (numbered.held _ _).mp (mem_taskLines.mp found)
  obtain ⟨rest, grown⟩ := prefix_intern known task
  have within := (List.getElem?_eq_some_iff.mp number).1
  refine ⟨line, mem_taskLines.mpr ((more.held _ _).mpr ?_), same⟩
  rw [← grown, List.getElem?_append_left within]
  exact number

/-- A recorded episode refers to a line exactly if its own index is one of a task. -/
theorem references_of_recorded_iff (resolved : Resolved s) (same : s'.tasks = s.tasks)
    (entered : s'.writer.metadata.episodes = s.writer.metadata.episodes ++
      [⟨s.writer.episodeIndex, s.writer.frameData.length, [s.writer.episodeIndex]⟩]) :
    ReferencesResolve s' ↔ s.writer.episodeIndex < s.tasks.entries.length := by
  obtain ⟨⟨known, answers, numbered⟩, resolve⟩ := resolved
  rw [← numbered.line_iff]
  unfold ReferencesResolve
  rw [entered, same]
  constructor
  · intro all
    apply all _ (List.mem_append_right _ (List.mem_singleton_self _))
    exact List.mem_singleton_self _
  · intro line info member index listed
    rcases List.mem_append.mp member with earlier | own
    · exact resolve info earlier index listed
    · obtain rfl := List.mem_singleton.mp own
      rw [List.mem_singleton.mp listed]
      exact line

end

/-! ### Runs -/

section
variable [Zero Value] {s : TaskedWriter Value} {history : TaskedHistory Value}
variable {flushing : FlushingConfig} {decode : Decoder}

/-- A step keeps the references resolved exactly if the index it records is one of a task. -/
theorem references_judged :
    Judged (taskedMachine : Machine (TaskedWriter Value) (TaskedCall Value) TaskedOut) Resolved
      (fun e => ReferencesResolve e.post) IndexRegistered where
  decided := by
    intro s call s' out resolved moved
    have moves := taskedMachine_moves moved
    cases moves with
    | @registered task after =>
      subst after
      exact iff_of_true (references_of_registered resolved task) trivial
    | unreferring other same only unobserved =>
      apply iff_of_true (references_of_unreferring resolved.2 same only)
      cases call with
      | finishEpisode =>
        rintro ⟨frame, member, some_⟩
        exact absurd (unobserved rfl frame member) some_
      | registerTask task => trivial
      | startEpisode taskIndex => trivial
      | writeFrame frame => trivial
      | finalize => trivial
    | recorded same observed entered =>
      rw [references_of_recorded_iff resolved same entered]
      constructor
      · exact fun within _ => within
      · exact fun within => within observed
  kept := by
    intro s call s' out resolved moved met
    have moves := taskedMachine_moves moved
    cases moves with
    | @registered task after =>
      subst after
      obtain ⟨known, answers, numbered⟩ := resolved.1
      exact ⟨⟨_, _, numbered.register task⟩, references_of_registered resolved task⟩
    | unreferring other same only unobserved =>
      refine ⟨?_, references_of_unreferring resolved.2 same only⟩
      rw [same]
      exact resolved.1
    | recorded same observed entered =>
      refine ⟨?_, (references_of_recorded_iff resolved same entered).mpr (met observed)⟩
      rw [same]
      exact resolved.1

/-- In every run the tasks are numbered as they were registered. -/
theorem numbered_run (run : Run taskedMachine (newTasked flushing decode) history s) :
    ∃ known, Numbered known (registrations history) s.tasks := by
  induction run with
  | start => exact ⟨[], numbered_empty⟩
  | @next history s call s' out before moved ih =>
    obtain ⟨known, numbered⟩ := ih
    have moves := taskedMachine_moves moved
    cases moves with
    | @registered task after =>
      subst after
      exact ⟨intern known task, numbered.register task⟩
    | unreferring other same only unobserved =>
      refine ⟨known, ?_⟩
      have silent : registrations (⟨s, call, out, s'⟩ :: history) = registrations history := by
        cases call with
        | registerTask task => exact absurd rfl (other task)
        | startEpisode taskIndex => rfl
        | writeFrame frame => rfl
        | finishEpisode => rfl
        | finalize => rfl
      rw [silent, same]
      exact numbered
    | recorded same observed entered =>
      refine ⟨known, ?_⟩
      rw [same]
      exact numbered

/-- In every run the registered tasks are numbered from zero on, and every task index that is recorded has
its line exactly if each episode, when it was recorded, had an index below the number of tasks. -/
theorem task_references_resolve_iff (run : Run taskedMachine (newTasked flushing decode) history s) :
    TasksNumbered (registrations history) s.tasks ∧
      ((∀ e ∈ history, ReferencesResolve e.post) ↔ ∀ e ∈ history, IndexRegistered e.pre e.act) := by
  obtain ⟨known, numbered⟩ := numbered_run run
  refine ⟨numbered.tasksNumbered, references_judged.run_iff ⟨⟨[], [], numbered_empty⟩, ?_⟩ run⟩
  intro info member
  cases member

end

instance (s : TaskedWriter Value) (call : TaskedCall Value) : Decidable (IndexRegistered s call) :=
  match call with
  | .finishEpisode => inferInstanceAs (Decidable ((∃ frame ∈ s.writer.frameData,
      frame.observationState ≠ none) → s.writer.episodeIndex < s.tasks.entries.length))
  | .registerTask _ => .isTrue trivial
  | .startEpisode _ => .isTrue trivial
  | .writeFrame _ => .isTrue trivial
  | .finalize => .isTrue trivial

/-- A writer that never flushes, without tasks. -/
def plainTasked : TaskedWriter Nat := newTasked ⟨0, 0⟩ fun _ => none

/-- One task and the first episode. -/
theorem registered_task_referred :
    ∃ history s, Run taskedMachine plainTasked history s ∧ history.length = 3 ∧
      ∀ e ∈ history, ReferencesResolve e.post := by
  obtain ⟨history, s, run, seen⟩ := Run.of_observation taskedMachine plainTasked
    [.registerTask "pick", .writeFrame (stateFrame 0), .finishEpisode]
    (fun reached => (reached.1.length, reached.1.all fun e => decide (IndexRegistered e.pre e.act)))
    (3, true) (by decide +kernel)
  obtain ⟨three, registered⟩ := Prod.mk.inj seen
  have each : ∀ e ∈ history, IndexRegistered e.pre e.act := by simpa using registered
  exact ⟨history, s, run, three, (task_references_resolve_iff run).2.mpr each⟩

/-- Without a task the first episode refers to one, and no file of tasks is written. -/
theorem unregistered_task_referred :
    ∃ history s, Run taskedMachine plainTasked history s ∧ ¬ReferencesResolve s := by
  obtain ⟨history, s, run, seen⟩ := Run.of_observation taskedMachine plainTasked
    [.startEpisode (some 0), .writeFrame (stateFrame 0), .finishEpisode, .finalize]
    (fun reached => (reached.2.writer.metadata.episodes, taskLines reached.2.tasks))
    ([⟨0, 1, [0]⟩], []) (by decide +kernel)
  obtain ⟨episodes, lines⟩ := Prod.mk.inj seen
  refine ⟨history, s, run, ?_⟩
  intro resolve
  unfold ReferencesResolve at resolve
  rw [episodes, lines] at resolve
  simp at resolve

end Roboflow.Lerobot
