import Roboflow.Library.Machine
import Roboflow.Library.StableSort
import Roboflow.Lerobot.VideoBuffers
import Roboflow.Metadata.FeatureRegistry
import Roboflow.Metadata.TaskRegistry

/-! The way of an episode's metadata from a worker to the dataset files: `metadata/submitter.rs`
writes it through `metadata/registry.rs` under the keys of `metadata/keys.rs`, and
`metadata/assembler.rs` scans it back. A stored value is kept as what was encoded, calls come
one at a time, and no call to the store or to the output fails. A `HashMap` is the list of its
entries in the order of its iteration, and the statistics of an episode are passed through. -/
namespace Roboflow.Metadata.Assembly
open Library Tikv

/-! ### Keys -/

/-- `MetadataKeys::task_counter`. -/
def taskCounterKey (batchId : String) : Bytes := utf8 (metadataPrefix ++ "/" ++ batchId ++ "/task_counter")

/-- `MetadataKeys::task`. -/
def taskKey (batchId taskHash : String) : Bytes :=
  utf8 (metadataPrefix ++ "/" ++ batchId ++ "/tasks/" ++ taskHash)

/-- `MetadataKeys::task_prefix`. -/
def taskPrefix (batchId : String) : Bytes := utf8 (metadataPrefix ++ "/" ++ batchId ++ "/tasks/")

/-- `MetadataKeys::episode_metadata`. -/
def episodeMetadataKey (batchId : String) (episodeIndex : Nat) : Bytes :=
  utf8 (metadataPrefix ++ "/" ++ batchId ++ "/metadata/episode/" ++ Lerobot.padded 6 episodeIndex)

/-- `MetadataKeys::episode_metadata_prefix`. -/
def episodeMetadataPrefix (batchId : String) : Bytes :=
  utf8 (metadataPrefix ++ "/" ++ batchId ++ "/metadata/episode/")

/-! ### Stored values -/

structure PartialEpisodeMetadata (Stats : Type) where
  episodeIndex : Nat
  length : Nat
  tasks : List String
  stats : Stats

inductive Stored (Stats : Type) where
  | taskCounter (currentIndex version : Nat)
  | task (entry : TaskEntry)
  | feature (spec : FeatureSpec)
  | episode (metadata : PartialEpisodeMetadata Stats)

namespace Stored

def task? : Stored Stats → Option TaskEntry
  | .task entry => some entry
  | _ => none

def episode? : Stored Stats → Option (PartialEpisodeMetadata Stats)
  | .episode metadata => some metadata
  | _ => none

end Stored

/-- Errors of the registry's own; the value under a key is of another kind, or a spec conflicts. -/
inductive TikvError where
  | deserialization
  | specMismatch (name : String) (existing new : FeatureSpec)

/-! ### The registry -/

section Registry
variable {Stats : Type} (hashTask : String → String) (batchId : String)

def registerTask (store : Kv Bytes (Stored Stats)) (task : String) :
    Kv Bytes (Stored Stats) × Except TikvError Nat :=
  match store.get (taskKey batchId (hashTask task)) with
  | some (.task entry) => (store, .ok entry.taskIndex)
  | some _ => (store, .error .deserialization)
  | none =>
    let allocate (current : Nat) :=
      ((store.put (taskCounterKey batchId) (.taskCounter (current + 1) 0)).put
        (taskKey batchId (hashTask task)) (.task { taskIndex := current, task := task }), .ok current)
    match store.get (taskCounterKey batchId) with
    | some (.taskCounter currentIndex _) => allocate currentIndex
    | some _ => (store, .error .deserialization)
    | none => allocate 0

/-- The first loop of `submit_episode`; a failed call leaves what was registered before it. -/
def registerTasks (store : Kv Bytes (Stored Stats)) :
    List String → Kv Bytes (Stored Stats) × Except TikvError (List Nat)
  | [] => (store, .ok [])
  | task :: rest =>
    match registerTask hashTask batchId store task with
    | (store, .error cause) => (store, .error cause)
    | (store, .ok idx) =>
      match registerTasks store rest with
      | (store, .error cause) => (store, .error cause)
      | (store, .ok indices) => (store, .ok (idx :: indices))

def registerFeature (store : Kv Bytes (Stored Stats)) (name : String) (spec : FeatureSpec) :
    Kv Bytes (Stored Stats) × Except TikvError Unit :=
  match store.get (featureKey batchId name) with
  | some (.feature existing) =>
    if existing.isCompatible spec then (store, .ok ())
    else (store, .error (.specMismatch name existing spec))
  | some _ => (store, .error .deserialization)
  | none => (store.put (featureKey batchId name) (.feature spec), .ok ())

/-- The second loop of `submit_episode`. -/
def registerFeatures (store : Kv Bytes (Stored Stats)) :
    List (String × FeatureShape) → Kv Bytes (Stored Stats) × Except TikvError Unit
  | [] => (store, .ok ())
  | (name, shape) :: rest =>
    match registerFeature batchId store name shape.toSpec with
    | (store, .error cause) => (store, .error cause)
    | (store, .ok ()) => registerFeatures store rest

def storeEpisodeMetadata (store : Kv Bytes (Stored Stats)) (metadata : PartialEpisodeMetadata Stats) :
    Kv Bytes (Stored Stats) :=
  store.put (episodeMetadataKey batchId metadata.episodeIndex) (.episode metadata)

def scanEpisodeMetadata (store : Kv Bytes (Stored Stats)) : List (PartialEpisodeMetadata Stats) :=
  sortByKey (·.episodeIndex)
    ((scan store (episodeMetadataPrefix batchId) 100000).filterMap fun pair => pair.2.episode?)

def scanTasks (store : Kv Bytes (Stored Stats)) : List TaskEntry :=
  sortByKey (·.taskIndex) ((scan store (taskPrefix batchId) 10000).filterMap fun pair => pair.2.task?)

/-- The loop of `scan_features`; a later key with the same last segment replaces an earlier one. -/
def collectStored (features : Kv Bytes FeatureSpec) :
    List (Bytes × Stored Stats) → Except TikvError (Kv Bytes FeatureSpec)
  | [] => .ok features
  | (key, .feature spec) :: rest => collectStored (features.put (lastSegment key) spec) rest
  | _ :: _ => .error .deserialization

def scanFeatures (store : Kv Bytes (Stored Stats)) : Except TikvError (Kv Bytes FeatureSpec) :=
  collectStored .empty (scan store (featurePrefix batchId) 1000)

/-! ### Submissions -/

structure SubmissionResult where
  episodeIndex : Nat
  taskIndices : List Nat
  deriving DecidableEq

/-- What `submit_episode_with_stats` reads of an `EpisodeStats`. -/
structure EpisodeStats (Stats : Type) where
  frameCount : Nat
  featureStats : Stats
  taskIndices : List Nat

def submitEpisode (store : Kv Bytes (Stored Stats)) (episodeIndex frameCount : Nat) (tasks : List String)
    (featureShapes : List (String × FeatureShape)) (stats : Stats) :
    Kv Bytes (Stored Stats) × Except TikvError SubmissionResult :=
  match registerTasks hashTask batchId store tasks with
  | (store, .error cause) => (store, .error cause)
  | (store, .ok taskIndices) =>
    match registerFeatures batchId store featureShapes with
    | (store, .error cause) => (store, .error cause)
    | (store, .ok ()) =>
      let metadata : PartialEpisodeMetadata Stats :=
        { episodeIndex := episodeIndex, length := frameCount, tasks := tasks, stats := stats }
      (storeEpisodeMetadata batchId store metadata, .ok ⟨episodeIndex, taskIndices⟩)

/-- `format!("task_{}", idx)`. -/
def taskText (idx : Nat) : String := "task_" ++ Lerobot.padded 0 idx

def submitEpisodeWithStats (store : Kv Bytes (Stored Stats)) (episodeIndex : Nat)
    (episodeStats : EpisodeStats Stats) (featureShapes : List (String × FeatureShape)) :
    Kv Bytes (Stored Stats) × Except TikvError SubmissionResult :=
  submitEpisode hashTask batchId store episodeIndex episodeStats.frameCount
    (episodeStats.taskIndices.map taskText) featureShapes episodeStats.featureStats

end Registry

inductive Submission (Stats : Type) where
  | submitEpisode (episodeIndex frameCount : Nat) (tasks : List String)
      (featureShapes : List (String × FeatureShape)) (stats : Stats)
  | submitEpisodeWithStats (episodeIndex : Nat) (episodeStats : EpisodeStats Stats)
      (featureShapes : List (String × FeatureShape))

/-- Submissions to one batch, one at a time. -/
def submissions (hashTask : String → String) (batchId : String) :
    Machine (Kv Bytes (Stored Stats)) (Submission Stats) (Except TikvError SubmissionResult) where
  step store submission :=
    match submission with
    | .submitEpisode episodeIndex frameCount tasks featureShapes stats =>
      some (submitEpisode hashTask batchId store episodeIndex frameCount tasks featureShapes stats)
    | .submitEpisodeWithStats episodeIndex episodeStats featureShapes =>
      some (submitEpisodeWithStats hashTask batchId store episodeIndex episodeStats featureShapes)

/-! ### The dataset files -/

/-- A feature in info.json. -/
structure FeatureJson where
  dtype : String
  shape : List Nat
  names : Option (List String)
  deriving DecidableEq

def featureJson (spec : FeatureSpec) : FeatureJson :=
  if spec.dtype.val = "video" then
    { dtype := "video", shape := spec.shape.val.map Fin.val, names := some ["height", "width", "channel"] }
  else { dtype := spec.dtype.val, shape := spec.shape.val.map Fin.val, names := none }

structure LerobotInfo where
  name : String
  codebaseVersion : String
  robotType : Option String
  totalEpisodes : Nat
  totalFrames : Nat
  fps : Nat
  features : Kv Bytes FeatureJson

structure EpisodeInfo where
  episodeIndex : Nat
  length : Nat
  tasks : List Nat
  deriving DecidableEq

/-- The lines of the four files. -/
structure DatasetFiles (Stats : Type) where
  info : LerobotInfo
  episodes : List EpisodeInfo
  tasks : List TaskEntry
  episodesStats : List (Nat × Stats)

inductive MetadataAssemblyError where
  | tiKvError (context : String) (cause : TikvError)
  | noEpisodes

/-- The features that every dataset has; they are inserted after the registered ones. -/
def indexFeatures : List (Bytes × FeatureJson) :=
  [(utf8 "timestamp", ⟨"float64", [1], some ["timestamp"]⟩),
    (utf8 "episode_index", ⟨"int64", [1], none⟩),
    (utf8 "index", ⟨"int64", [1], none⟩),
    (utf8 "task_index", ⟨"int64", [1], none⟩)]

/-- The contents of `write_info_json`; the sum of the lengths is a `usize`. -/
def infoJson (episodes : List (PartialEpisodeMetadata Stats)) (features : Kv Bytes FeatureSpec)
    (datasetName : String) (robotType : Option String) (fps : Nat) : LerobotInfo where
  name := datasetName
  codebaseVersion := "v2.1"
  robotType := robotType
  totalEpisodes := episodes.length
  totalFrames := (episodes.map (·.length)).sum % 2 ^ 64
  fps := fps
  features := (features.map featureJson).putAll indexFeatures

/-- The task lookup of `write_episodes_jsonl`. -/
def taskMap (tasks : List TaskEntry) : Kv String Nat :=
  Kv.empty.putAll (tasks.map fun entry => (entry.task, entry.taskIndex))

/-- The lines of `write_episodes_jsonl`; a text that is not found is left out. -/
def episodesJsonl (episodes : List (PartialEpisodeMetadata Stats)) (tasks : List TaskEntry) :
    List EpisodeInfo :=
  episodes.map fun episode =>
    { episodeIndex := episode.episodeIndex
      length := episode.length
      tasks := episode.tasks.filterMap (taskMap tasks).get }

def assembleAndWrite (batchId : String) (store : Kv Bytes (Stored Stats)) (datasetName : String)
    (robotType : Option String) (fps : Nat) : Except MetadataAssemblyError (DatasetFiles Stats) :=
  let episodes := scanEpisodeMetadata batchId store
  if episodes.isEmpty then .error .noEpisodes
  else
    let tasks := scanTasks batchId store
    match scanFeatures batchId store with
    | .error cause => .error (.tiKvError "Failed to scan features" cause)
    | .ok features =>
      .ok
        { info := infoJson episodes features datasetName robotType fps
          episodes := episodesJsonl episodes (scanTasks batchId store)
          tasks := tasks
          episodesStats := episodes.map fun episode => (episode.episodeIndex, episode.stats) }

end Roboflow.Metadata.Assembly
