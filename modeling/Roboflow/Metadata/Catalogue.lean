import Roboflow.Library.Interning
import Roboflow.Metadata.Submission

/-! What a batch has been given, without keys: the task texts in the order of their indices, the
features by name and the episodes by index. The keys of the four kinds do not meet, so the store
holds a catalogue, and a submission to the store is a submission to the catalogue. Two texts
with one hash would be one task, which is excluded for the texts that are submitted only. -/
namespace Roboflow.Metadata.Assembly
open Library Tikv

variable {Stats : Type} {hashTask : String → String} {batchId : String}

/-! ### Keys -/

/-- The keys of one batch. -/
inductive MetadataKey where
  | taskCounter
  | task (taskHash : String)
  | feature (name : String)
  | episode (episodeIndex : Nat)
  deriving DecidableEq

namespace MetadataKey

def bytes (batchId : String) : MetadataKey → Bytes
  | .taskCounter => taskCounterKey batchId
  | .task taskHash => taskKey batchId taskHash
  | .feature name => featureKey batchId name
  | .episode episodeIndex => episodeMetadataKey batchId episodeIndex

/-- What follows the batch id and its slash. -/
def tail : MetadataKey → Bytes
  | .taskCounter => utf8 "task_counter"
  | .task taskHash => utf8 "tasks/" ++ utf8 taskHash
  | .feature name => utf8 "features/" ++ utf8 name
  | .episode episodeIndex => utf8 "metadata/episode/" ++ utf8 (Lerobot.padded 6 episodeIndex)

end MetadataKey

/-- What all keys of a batch start with. -/
def batchStart (batchId : String) : Bytes := utf8 (metadataPrefix ++ "/" ++ batchId ++ "/")

theorem utf8_tasks : utf8 "tasks/" = [116, 97, 115, 107, 115, 47] := by decide
theorem utf8_counter : utf8 "task_counter" = [116, 97, 115, 107, 95, 99, 111, 117, 110, 116, 101, 114] := by decide
theorem utf8_features : utf8 "features/" = [102, 101, 97, 116, 117, 114, 101, 115, 47] := by decide
theorem utf8_episodes : utf8 "metadata/episode/" =
    [109, 101, 116, 97, 100, 97, 116, 97, 47, 101, 112, 105, 115, 111, 100, 101, 47] := by decide

/-- The slash after the batch id belongs to the start. -/
theorem utf8_start (batchId rest : String) :
    utf8 (metadataPrefix ++ "/" ++ batchId ++ ("/" ++ rest)) = batchStart batchId ++ utf8 rest := by
  rw [batchStart, ← String.append_assoc, utf8_append _ rest]

theorem MetadataKey.bytes_eq (batchId : String) (key : MetadataKey) :
    key.bytes batchId = batchStart batchId ++ key.tail := by
  cases key with
  | taskCounter => exact utf8_start batchId "task_counter"
  | task taskHash =>
    rw [bytes, taskKey, utf8_append _ taskHash, tail, ← List.append_assoc]
    exact congrArg (· ++ utf8 taskHash) (utf8_start batchId "tasks/")
  | feature name =>
    rw [bytes, featureKey, utf8_append _ name, tail, ← List.append_assoc]
    exact congrArg (· ++ utf8 name) (utf8_start batchId "features/")
  | episode episodeIndex =>
    rw [bytes, episodeMetadataKey, utf8_append _ (Lerobot.padded 6 episodeIndex), tail, ← List.append_assoc]
    exact congrArg (· ++ utf8 (Lerobot.padded 6 episodeIndex)) (utf8_start batchId "metadata/episode/")

theorem MetadataKey.tail_injective {key other : MetadataKey} (same : key.tail = other.tail) :
    key = other := by
  cases key <;> cases other <;>
    simp only [tail, utf8_tasks, utf8_counter, utf8_features, utf8_episodes, List.cons_append,
      List.nil_append, List.cons.injEq, utf8_inj, true_and] at same
  all_goals first
    | rfl
    | exact absurd same.1 (by decide)
    | rw [same]
    | rw [Lerobot.padded_injective same]

theorem MetadataKey.bytes_inj {key other : MetadataKey} :
    key.bytes batchId = other.bytes batchId ↔ key = other := by
  rw [bytes_eq, bytes_eq, List.append_cancel_left_eq]
  exact ⟨tail_injective, fun same => by rw [same]⟩

/-- A scan of the keys that go on with a text. -/
theorem inScan_tail {start : Bytes} {part : String} (starts : start = batchStart batchId ++ utf8 part)
    (key : MetadataKey) : inScan start (key.bytes batchId) = true ↔ utf8 part <+: key.tail := by
  have text : inScan start (key.bytes batchId) = true ↔ start <+: key.bytes batchId := by
    cases key <;> exact inScan_utf8
  rw [text, key.bytes_eq, starts, List.prefix_append_right_inj]

theorem inScan_tasks (key : MetadataKey) :
    inScan (taskPrefix batchId) (key.bytes batchId) = true ↔ ∃ taskHash, key = .task taskHash := by
  have starts : taskPrefix batchId = batchStart batchId ++ utf8 "tasks/" := utf8_start batchId "tasks/"
  rw [inScan_tail starts]
  cases key <;> simp [MetadataKey.tail, utf8_tasks, utf8_counter, utf8_features, utf8_episodes]

theorem inScan_features (key : MetadataKey) :
    inScan (featurePrefix batchId) (key.bytes batchId) = true ↔ ∃ name, key = .feature name := by
  have starts : featurePrefix batchId = batchStart batchId ++ utf8 "features/" := utf8_start batchId "features/"
  rw [inScan_tail starts]
  cases key <;> simp [MetadataKey.tail, utf8_tasks, utf8_counter, utf8_features, utf8_episodes]

theorem inScan_episodes (key : MetadataKey) :
    inScan (episodeMetadataPrefix batchId) (key.bytes batchId) = true ↔
      ∃ episodeIndex, key = .episode episodeIndex := by
  have starts : episodeMetadataPrefix batchId = batchStart batchId ++ utf8 "metadata/episode/" :=
    utf8_start batchId "metadata/episode/"
  rw [inScan_tail starts]
  cases key <;> simp [MetadataKey.tail, utf8_tasks, utf8_counter, utf8_features, utf8_episodes]

/-! ### Catalogues -/

structure Catalogue (Stats : Type) where
  texts : List String
  features : Kv String FeatureSpec
  episodes : Kv Nat (PartialEpisodeMetadata Stats)
  distinct : texts.Nodup
  indexed : ∀ i metadata, episodes.get i = some metadata → metadata.episodeIndex = i

namespace Submission

def episodeIndex : Submission Stats → Nat
  | .submitEpisode episodeIndex _ _ _ _ => episodeIndex
  | .submitEpisodeWithStats episodeIndex _ _ => episodeIndex

def frameCount : Submission Stats → Nat
  | .submitEpisode _ frameCount _ _ _ => frameCount
  | .submitEpisodeWithStats _ episodeStats _ => episodeStats.frameCount

def tasks : Submission Stats → List String
  | .submitEpisode _ _ tasks _ _ => tasks
  | .submitEpisodeWithStats _ episodeStats _ => episodeStats.taskIndices.map taskText

def featureShapes : Submission Stats → List (String × FeatureShape)
  | .submitEpisode _ _ _ featureShapes _ => featureShapes
  | .submitEpisodeWithStats _ _ featureShapes => featureShapes

def stats : Submission Stats → Stats
  | .submitEpisode _ _ _ _ stats => stats
  | .submitEpisodeWithStats _ episodeStats _ => episodeStats.featureStats

/-- The task indices of the `EpisodeStats`, if it was submitted with one. -/
def givenIndices : Submission Stats → Option (List Nat)
  | .submitEpisode _ _ _ _ _ => none
  | .submitEpisodeWithStats _ episodeStats _ => some episodeStats.taskIndices

def metadata (submission : Submission Stats) : PartialEpisodeMetadata Stats where
  episodeIndex := submission.episodeIndex
  length := submission.frameCount
  tasks := submission.tasks
  stats := submission.stats

end Submission

/-- Features one after another, up to the first that conflicts. -/
def admitAll (features : Kv String FeatureSpec) :
    List (String × FeatureShape) → Kv String FeatureSpec × Except TikvError Unit
  | [] => (features, .ok ())
  | (name, shape) :: rest =>
    match features.get name with
    | some existing =>
      if existing.isCompatible shape.toSpec then admitAll features rest
      else (features, .error (.specMismatch name existing shape.toSpec))
    | none => admitAll (features.put name shape.toSpec) rest

namespace Catalogue

def empty : Catalogue Stats := ⟨[], .empty, .empty, .nil, by simp⟩

def register (catalogue : Catalogue Stats) (task : String) : Catalogue Stats :=
  { catalogue with
    texts := intern catalogue.texts task
    distinct := intern_nodup catalogue.distinct task }

def registerAll (catalogue : Catalogue Stats) (tasks : List String) : Catalogue Stats :=
  { catalogue with
    texts := internAll catalogue.texts tasks
    distinct := internAll_nodup catalogue.distinct tasks }

def addFeature (catalogue : Catalogue Stats) (name : String) (spec : FeatureSpec) : Catalogue Stats :=
  { catalogue with features := catalogue.features.put name spec }

def record (catalogue : Catalogue Stats) (metadata : PartialEpisodeMetadata Stats) : Catalogue Stats :=
  { catalogue with
    episodes := catalogue.episodes.put metadata.episodeIndex metadata
    indexed := by
      intro i found read
      rw [Kv.get_put] at read
      split at read
      · rename_i same
        cases read
        exact same.symm
      · exact catalogue.indexed i found read }

def submit (catalogue : Catalogue Stats) (submission : Submission Stats) :
    Catalogue Stats × Except TikvError SubmissionResult :=
  let known := catalogue.registerAll submission.tasks
  let admitted := admitAll known.features submission.featureShapes
  let described := { known with features := admitted.1 }
  match admitted.2 with
  | .error cause => (described, .error cause)
  | .ok () =>
    (described.record submission.metadata,
      .ok ⟨submission.episodeIndex, submission.tasks.map known.texts.idxOf⟩)

/-- What the store holds under each key of the batch. -/
def value (hashTask : String → String) (catalogue : Catalogue Stats) : MetadataKey → Option (Stored Stats)
  | .taskCounter =>
    if catalogue.texts = [] then none else some (.taskCounter catalogue.texts.length 0)
  | .task taskHash =>
    (catalogue.texts.find? fun task => hashTask task = taskHash).map fun task =>
      .task { taskIndex := catalogue.texts.idxOf task, task := task }
  | .feature name => (catalogue.features.get name).map .feature
  | .episode episodeIndex => (catalogue.episodes.get episodeIndex).map .episode

end Catalogue

/-- A store holds these values under the keys of the batch and nothing else. -/
structure Stores (batchId : String) (store : Kv Bytes (Stored Stats))
    (value : MetadataKey → Option (Stored Stats)) : Prop where
  values : ∀ key : MetadataKey, store.get (key.bytes batchId) = value key
  keys : ∀ bytes, (store.get bytes).isSome → ∃ key : MetadataKey, bytes = key.bytes batchId

theorem stores_empty (hashTask : String → String) (batchId : String) :
    Stores batchId (.empty : Kv Bytes (Stored Stats)) (Catalogue.empty.value hashTask) := by
  refine ⟨fun key => ?_, fun bytes present => ?_⟩
  · cases key <;> rfl
  · rw [Kv.get_empty] at present
    cases present

/-- Writing a key changes the value of that key. -/
theorem Stores.put {store : Kv Bytes (Stored Stats)} {value : MetadataKey → Option (Stored Stats)}
    (stores : Stores batchId store value) (key : MetadataKey) (written : Stored Stats) :
    Stores batchId (store.put (key.bytes batchId) written) (Function.update value key (some written)) := by
  refine ⟨fun other => ?_, fun bytes present => ?_⟩
  · by_cases same : other = key
    · rw [same, Kv.get_put_self, Function.update_self]
    · rw [Kv.get_put_ne _ (fun bytes => same (MetadataKey.bytes_inj.mp bytes)),
        Function.update_of_ne same, stores.values other]
  · rw [Kv.get_put] at present
    split at present
    · rename_i same
      exact ⟨key, same⟩
    · exact stores.keys bytes present

/-! ### What the loops do -/

section Simulation
variable {store : Kv Bytes (Stored Stats)} {catalogue : Catalogue Stats}

/-- The texts that a catalogue knows and that are submitted have hashes of their own. -/
def Apart (hashTask : String → String) (texts : List String) : Prop :=
  ∀ text ∈ texts, ∀ other ∈ texts, hashTask text = hashTask other → text = other

theorem Catalogue.value_task_known (known : task ∈ catalogue.texts)
    (apart : Apart hashTask (task :: catalogue.texts)) :
    catalogue.value hashTask (.task (hashTask task)) =
      some (.task { taskIndex := catalogue.texts.idxOf task, task := task }) := by
  have found : catalogue.texts.find? (fun text => hashTask text = hashTask task) = some task := by
    cases search : catalogue.texts.find? (fun text => hashTask text = hashTask task) with
    | none => exact absurd (List.find?_eq_none.mp search task known) (by simp)
    | some text =>
      have same := apart text (List.mem_cons_of_mem _ (List.mem_of_find?_eq_some search)) task
        List.mem_cons_self (by simpa using List.find?_some search)
      rw [same]
  rw [value, found, Option.map_some]

theorem Catalogue.value_task_new (new : task ∉ catalogue.texts)
    (apart : Apart hashTask (task :: catalogue.texts)) :
    catalogue.value hashTask (.task (hashTask task)) = none := by
  have missing : catalogue.texts.find? (fun text => hashTask text = hashTask task) = none := by
    refine List.find?_eq_none.mpr fun text known same => ?_
    have equal := apart text (List.mem_cons_of_mem _ known) task List.mem_cons_self (by simpa using same)
    exact new (equal ▸ known)
  rw [value, missing, Option.map_none]

theorem Apart.of_known (apart : Apart hashTask (task :: catalogue.texts)) :
    Apart hashTask (task :: (catalogue.register task).texts) := by
  have listed : ∀ text ∈ task :: (catalogue.register task).texts, text ∈ task :: catalogue.texts := by
    intro text member
    rcases List.mem_cons.mp member with rfl | known
    · exact List.mem_cons_self
    · rcases mem_intern.mp known with old | rfl
      · exact List.mem_cons_of_mem _ old
      · exact List.mem_cons_self
  exact fun text member other otherMember => apart text (listed text member) other (listed other otherMember)

theorem Catalogue.idxOf_register_new (new : task ∉ catalogue.texts) :
    (catalogue.register task).texts.idxOf task = catalogue.texts.length := by
  have texts : (catalogue.register task).texts = catalogue.texts ++ [task] := intern_of_notMem new
  rw [texts, List.idxOf_append_of_notMem new, List.idxOf_cons_self, Nat.add_zero]

theorem Catalogue.register_known (known : task ∈ catalogue.texts) : catalogue.register task = catalogue := by
  cases catalogue
  simp only [register, intern_of_mem known]

/-- A new text changes the counter and its own entry. -/
theorem Catalogue.value_register (new : task ∉ catalogue.texts)
    (apart : Apart hashTask (task :: catalogue.texts)) :
    (catalogue.register task).value hashTask =
      Function.update
        (Function.update (catalogue.value hashTask) .taskCounter
          (some (.taskCounter (catalogue.texts.length + 1) 0)))
        (.task (hashTask task)) (some (.task { taskIndex := catalogue.texts.length, task := task })) := by
  have texts : (catalogue.register task).texts = catalogue.texts ++ [task] := intern_of_notMem new
  funext key
  cases key with
  | taskCounter =>
    rw [Function.update_of_ne (by simp), Function.update_self]
    simp [value, texts]
  | feature name => rw [Function.update_of_ne (by simp), Function.update_of_ne (by simp)]; rfl
  | episode episodeIndex => rw [Function.update_of_ne (by simp), Function.update_of_ne (by simp)]; rfl
  | task taskHash =>
    by_cases own : hashTask task = taskHash
    · rw [← own, Function.update_self, value_task_known (mem_intern.mpr (Or.inr rfl)) apart.of_known,
        idxOf_register_new new]
    · rw [Function.update_of_ne (by simpa using Ne.symm own), Function.update_of_ne (by simp)]
      simp only [value, texts, List.find?_append, List.find?_cons, own, decide_false, List.find?_nil,
        Option.or_none]
      cases search : catalogue.texts.find? (fun text => decide (hashTask text = taskHash)) with
      | none => rfl
      | some text =>
        rw [Option.map_some, Option.map_some,
          List.idxOf_append_of_mem (List.mem_of_find?_eq_some search)]

/-- A task that is registered gets its position among the texts. -/
theorem registerTask_stores (task : String) (stores : Stores batchId store (catalogue.value hashTask))
    (apart : Apart hashTask (task :: catalogue.texts)) :
    ∃ after, registerTask hashTask batchId store task =
        (after, .ok ((catalogue.register task).texts.idxOf task)) ∧
      Stores batchId after ((catalogue.register task).value hashTask) := by
  have entry : store.get (taskKey batchId (hashTask task)) = _ := stores.values (.task (hashTask task))
  have counter : store.get (taskCounterKey batchId) = _ := stores.values .taskCounter
  by_cases known : task ∈ catalogue.texts
  · rw [Catalogue.value_task_known known apart] at entry
    rw [Catalogue.register_known known]
    exact ⟨store, by simp only [registerTask, entry], stores⟩
  · rw [Catalogue.value_task_new known apart] at entry
    rw [Catalogue.value_register known apart, Catalogue.idxOf_register_new known]
    refine ⟨_, ?_, (stores.put .taskCounter _).put (.task (hashTask task)) _⟩
    simp only [registerTask, entry, counter, Catalogue.value]
    by_cases none_ : catalogue.texts = []
    · simp [none_, MetadataKey.bytes]
    · simp [none_, MetadataKey.bytes]

theorem Apart.mono (apart : Apart hashTask texts) (fewer : ∀ text ∈ others, text ∈ texts) :
    Apart hashTask others :=
  fun text member other otherMember => apart text (fewer text member) other (fewer other otherMember)

/-- The texts that are registered one after another. -/
theorem registerTasks_stores (tasks : List String)
    (stores : Stores batchId store (catalogue.value hashTask))
    (apart : Apart hashTask (catalogue.texts ++ tasks)) :
    ∃ after, registerTasks hashTask batchId store tasks =
        (after, .ok (tasks.map (catalogue.registerAll tasks).texts.idxOf)) ∧
      Stores batchId after ((catalogue.registerAll tasks).value hashTask) := by
  induction tasks generalizing store catalogue with
  | nil => exact ⟨store, rfl, stores⟩
  | cons task rest ih =>
    obtain ⟨middle, first, held⟩ := registerTask_stores task stores
      (apart.mono (by simp +contextual [or_imp]))
    obtain ⟨after, others, final⟩ := ih held (apart.mono fun text member => by
      rcases List.mem_append.mp member with known | later
      · rcases mem_intern.mp known with old | rfl
        · exact List.mem_append_left _ old
        · exact List.mem_append_right _ List.mem_cons_self
      · exact List.mem_append_right _ (List.mem_cons_of_mem _ later))
    have stays : ((catalogue.register task).registerAll rest).texts.idxOf task =
        (catalogue.register task).texts.idxOf task :=
      idxOf_grown (prefix_internAll _ rest) (mem_intern.mpr (Or.inr rfl))
    refine ⟨after, ?_, final⟩
    simp only [registerTasks, first, others, List.map_cons]
    rw [← stays]
    rfl

theorem Catalogue.value_addFeature (catalogue : Catalogue Stats) (name : String) (spec : FeatureSpec) :
    (catalogue.addFeature name spec).value hashTask =
      Function.update (catalogue.value hashTask) (.feature name) (some (.feature spec)) := by
  funext key
  by_cases own : key = .feature name
  · rw [own, Function.update_self]
    simp [value, addFeature]
  · rw [Function.update_of_ne own]
    cases key with
    | feature other =>
      simp only [value, addFeature]
      rw [Kv.get_put_ne _ fun same => own (congrArg MetadataKey.feature same)]
    | taskCounter => rfl
    | task taskHash => rfl
    | episode episodeIndex => rfl

theorem Catalogue.value_record (catalogue : Catalogue Stats) (metadata : PartialEpisodeMetadata Stats) :
    (catalogue.record metadata).value hashTask =
      Function.update (catalogue.value hashTask) (.episode metadata.episodeIndex)
        (some (.episode metadata)) := by
  funext key
  by_cases own : key = .episode metadata.episodeIndex
  · rw [own, Function.update_self]
    simp [value, record]
  · rw [Function.update_of_ne own]
    cases key with
    | episode other =>
      simp only [value, record]
      rw [Kv.get_put_ne _ fun same => own (congrArg MetadataKey.episode same)]
    | taskCounter => rfl
    | task taskHash => rfl
    | feature name => rfl

/-- Features are admitted to the store as to the catalogue. -/
theorem registerFeatures_stores (shapes : List (String × FeatureShape))
    (stores : Stores batchId store (catalogue.value hashTask)) :
    ∃ after, registerFeatures batchId store shapes = (after, (admitAll catalogue.features shapes).2) ∧
      Stores batchId after
        (Catalogue.value hashTask { catalogue with features := (admitAll catalogue.features shapes).1 }) := by
  induction shapes generalizing store catalogue with
  | nil => exact ⟨store, rfl, stores⟩
  | cons first rest ih =>
    obtain ⟨name, shape⟩ := first
    have entry : store.get (featureKey batchId name) = _ := stores.values (.feature name)
    simp only [Catalogue.value] at entry
    cases stored : catalogue.features.get name with
    | none =>
      rw [stored, Option.map_none] at entry
      have written := stores.put (.feature name) (.feature shape.toSpec)
      rw [← Catalogue.value_addFeature] at written
      obtain ⟨after, others, final⟩ := ih written
      refine ⟨after, ?_, ?_⟩
      · simp only [registerFeatures, registerFeature, entry, admitAll, stored]
        exact others
      · simp only [admitAll, stored]
        exact final
    | some existing =>
      rw [stored, Option.map_some] at entry
      by_cases compatible : existing.isCompatible shape.toSpec = true
      · obtain ⟨after, others, final⟩ := ih stores
        refine ⟨after, ?_, ?_⟩
        · simp only [registerFeatures, registerFeature, entry, admitAll, stored, compatible, if_true]
          exact others
        · simpa only [admitAll, stored, compatible, if_true] using final
      · refine ⟨store, ?_, ?_⟩
        · simp only [registerFeatures, registerFeature, entry, admitAll, stored, compatible, if_false,
            Bool.false_eq_true]
        · simpa only [admitAll, stored, compatible, if_false, Bool.false_eq_true] using stores

theorem submissions_step (hashTask : String → String) (batchId : String)
    (store : Kv Bytes (Stored Stats)) (submission : Submission Stats) :
    (submissions hashTask batchId).step store submission =
      some (submitEpisode hashTask batchId store submission.episodeIndex submission.frameCount
        submission.tasks submission.featureShapes submission.stats) := by
  cases submission <;> rfl

/-- A submission to the store is the submission to its catalogue. -/
theorem submit_stores (submission : Submission Stats)
    (stores : Stores batchId store (catalogue.value hashTask))
    (apart : Apart hashTask (catalogue.texts ++ submission.tasks)) :
    ∃ after, (submissions hashTask batchId).step store submission =
        some (after, (catalogue.submit submission).2) ∧
      Stores batchId after ((catalogue.submit submission).1.value hashTask) := by
  obtain ⟨known, tasks, knowing⟩ := registerTasks_stores submission.tasks stores apart
  obtain ⟨described, features, describing⟩ := registerFeatures_stores submission.featureShapes knowing
  rw [submissions_step]
  simp only [submitEpisode, tasks, features, Catalogue.submit]
  cases (admitAll (catalogue.registerAll submission.tasks).features submission.featureShapes).2 with
  | error cause => exact ⟨described, rfl, describing⟩
  | ok _ =>
    have written := describing.put (.episode submission.episodeIndex) (.episode submission.metadata)
    refine ⟨_, rfl, ?_⟩
    simp only
    rw [Catalogue.value_record]
    exact written

end Simulation

/-! ### Runs -/

/-- Submissions and their results, newest first. -/
abbrev Submissions (Stats : Type) :=
  History (Kv Bytes (Stored Stats)) (Submission Stats) (Except TikvError SubmissionResult)

/-- What the submissions of a history make of an empty catalogue. -/
def catalogueOf (history : Submissions Stats) : Catalogue Stats :=
  history.foldr (fun e catalogue => (catalogue.submit e.act).1) .empty

/-- All texts of a history, oldest first. -/
def textsOf (history : Submissions Stats) : List String := history.reverse.flatMap fun e => e.act.tasks

theorem Catalogue.submit_texts (catalogue : Catalogue Stats) (submission : Submission Stats) :
    (catalogue.submit submission).1.texts = internAll catalogue.texts submission.tasks := by
  simp only [submit]
  split <;> rfl

theorem catalogueOf_texts (history : Submissions Stats) :
    (catalogueOf history).texts = internAll [] (textsOf history) := by
  induction history with
  | nil => rfl
  | cons e older ih =>
    have appended : textsOf (e :: older) = textsOf older ++ e.act.tasks := by simp [textsOf]
    rw [catalogueOf, List.foldr_cons, ← catalogueOf, Catalogue.submit_texts, ih, appended,
      internAll_append]

/-- A store that only took submissions holds their catalogue. -/
theorem submissions_stores {history : Submissions Stats}
    (run : Run (submissions hashTask batchId) .empty history store)
    (apart : Apart hashTask (textsOf history)) :
    Stores batchId store ((catalogueOf history).value hashTask) := by
  induction run with
  | start => exact stores_empty hashTask batchId
  | @next history store submission after out before moved ih =>
    have grown : textsOf (⟨store, submission, out, after⟩ :: history) =
        textsOf history ++ submission.tasks := by simp [textsOf]
    rw [grown] at apart
    obtain ⟨reached, step, held⟩ := submit_stores submission
      (ih (apart.mono fun text => List.mem_append_left _)) (apart.mono fun text member => by
        rw [catalogueOf_texts, List.mem_append, mem_internAll] at member
        simpa using member)
    rw [step] at moved
    cases moved
    exact held

/-- Every submission is answered by the catalogue of those before it. -/
theorem submissions_answer {newer older : Submissions Stats}
    {e : Transition (Kv Bytes (Stored Stats)) (Submission Stats) (Except TikvError SubmissionResult)}
    (run : Run (submissions hashTask batchId) .empty (newer ++ e :: older) store)
    (apart : Apart hashTask (textsOf (newer ++ e :: older))) :
    e.out = ((catalogueOf older).submit e.act).2 := by
  obtain ⟨before, moved⟩ := run.split
  have parts : textsOf (newer ++ e :: older) = textsOf older ++ (e.act.tasks ++ textsOf newer) := by
    simp [textsOf]
  rw [parts] at apart
  have held := submissions_stores before (apart.mono fun text => List.mem_append_left _)
  obtain ⟨after, step, -⟩ := submit_stores e.act held (apart.mono fun text member => by
    rw [catalogueOf_texts, List.mem_append, mem_internAll] at member
    simp only [List.not_mem_nil, false_or] at member
    rcases member with known | own
    · exact List.mem_append_left _ known
    · exact List.mem_append_right _ (List.mem_append_left _ own))
  rw [step] at moved
  exact (congrArg Prod.snd (Option.some.inj moved)).symm

end Roboflow.Metadata.Assembly
