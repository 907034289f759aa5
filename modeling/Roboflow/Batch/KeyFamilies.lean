import Roboflow.Library.Paths
import Roboflow.Batch.KeyIsolation
import Roboflow.Catalog.CatalogClients
import Roboflow.Metadata.Catalogue
import Roboflow.Stats.Collector

/-! All keys of the shared store. Six modules build keys under prefixes of their own choice, and the
metadata keys of a batch stand beside the words that name the families of `batch/key.rs`. No two
keys are the same, since an accepted batch id has a colon. A scan, though, asks for a word without
the slash after it, and so reaches the metadata of every batch whose id begins with that word. -/
namespace Roboflow.Batch
open Library Tikv Metadata Assembly Stats

/-- A key by the function that builds it. -/
inductive TikvKey where
  /-- `JobKeys::record`. -/
  | job (fileHash : String)
  /-- `LockKeys::lock`. -/
  | lock (resource : String)
  /-- `StateKeys::checkpoint`. -/
  | state (fileHash : String)
  /-- `HeartbeatKeys::heartbeat`. -/
  | heartbeat (podId : String)
  /-- `ConfigKeys::config`. -/
  | config (configHash : String)
  /-- `SystemKeys::scanner_lock`. -/
  | scannerLock
  | batch (key : BatchKey)
  | metadata (batchId : String) (key : MetadataKey)
  /-- `MergeCoordinator::merge_key`. -/
  | merge (jobId : String)
  /-- The counter of `TiKVEpisodeAllocator::new`. -/
  | episodeCounter (batchId : String)
  | stats (key : StatsKey)
  /-- `EpisodeKey::metadata`. -/
  | episode (episodeId : String)
  /-- `SegmentKey::metadata`. -/
  | segment (segmentId : String)
  /-- `SegmentKey::config_index`. -/
  | configIndex (configHash segmentId : String)
  /-- `UploadKey::status`. -/
  | upload (episodeId : String)

namespace TikvKey

def bytes : TikvKey → Bytes
  | job fileHash => buildKey ["jobs", fileHash]
  | lock resource => buildKey ["locks", resource]
  | state fileHash => buildKey ["state", fileHash]
  | heartbeat podId => buildKey ["heartbeat", podId]
  | config configHash => buildKey ["configs", configHash]
  | scannerLock => buildKey ["system", "scanner_lock"]
  | batch key => key.bytes
  | metadata batchId key => key.bytes batchId
  | merge jobId => utf8 ("/roboflow/v1/merge/" ++ jobId)
  | episodeCounter batchId => utf8 ("/batch/" ++ batchId ++ "/episode_counter")
  | stats key => utf8 key.bytes
  | episode episodeId => Catalog.episodeKey episodeId
  | segment segmentId => Catalog.metadataKey segmentId
  | configIndex configHash segmentId => Catalog.configIndexKey configHash segmentId
  | upload episodeId => Catalog.uploadKey episodeId

/-- Accepted batch ids, and configuration hashes without a slash. Everything else is any text. -/
def Valid : TikvKey → Prop
  | batch (.spec batchId) | batch (.status batchId) | batch (.phase _ batchId) | batch (.unit batchId _)
  | batch (.pending batchId _) | metadata batchId _ | stats (.batchMeta batchId)
  | stats (.episode batchId _) => validateBatchId batchId = .ok ()
  | configIndex configHash _ => SlashFree configHash
  | _ => True

/-! ### Keys as paths -/

/-- The parts of a key that have no slash. -/
def parts : TikvKey → List String
  | job _ => ["", "roboflow", "v1", "jobs"]
  | lock _ => ["", "roboflow", "v1", "locks"]
  | state _ => ["", "roboflow", "v1", "state"]
  | heartbeat _ => ["", "roboflow", "v1", "heartbeat"]
  | config _ => ["", "roboflow", "v1", "configs"]
  | scannerLock => ["", "roboflow", "v1", "system"]
  | batch (.spec _) => ["", "roboflow", "v1", "batch", "specs"]
  | batch (.status _) => ["", "roboflow", "v1", "batch", "statuses"]
  | batch (.phase current _) => ["", "roboflow", "v1", "batch", "index", "phase", current.text]
  | batch (.unit batchId _) => ["", "roboflow", "v1", "batch", "workunits", batchId]
  | batch (.pending batchId _) => ["", "roboflow", "v1", "batch", "pending", batchId]
  | metadata batchId .taskCounter => ["", "roboflow", "v1", "batch", batchId]
  | metadata batchId (.task _) => ["", "roboflow", "v1", "batch", batchId, "tasks"]
  | metadata batchId (.feature _) => ["", "roboflow", "v1", "batch", batchId, "features"]
  | metadata batchId (.episode _) => ["", "roboflow", "v1", "batch", batchId, "metadata", "episode"]
  | merge _ => ["", "roboflow", "v1", "merge"]
  | episodeCounter _ => ["", "batch"]
  | stats (.batchMeta batchId) => ["stats", batchId]
  | stats (.episode batchId _) => ["stats", batchId, "episode"]
  | episode _ => ["roboflow", "ep"]
  | segment _ => ["roboflow", "seg"]
  | configIndex configHash _ => ["roboflow", "idx", "config", configHash]
  | upload _ => ["roboflow", "up"]

/-- What comes after them. -/
def last : TikvKey → String
  | job name | lock name | state name | heartbeat name | config name | merge name => name
  | scannerLock => "scanner_lock"
  | batch (.spec batchId) | batch (.status batchId) | batch (.phase _ batchId) => batchId
  | batch (.unit _ unitId) | batch (.pending _ unitId) => unitId
  | metadata _ .taskCounter => "task_counter"
  | metadata _ (.task taskHash) => taskHash
  | metadata _ (.feature name) => name
  | metadata _ (.episode episodeIndex) => Lerobot.padded 6 episodeIndex
  | episodeCounter batchId => batchId ++ "/episode_counter"
  | stats (.batchMeta _) => "meta"
  | stats (.episode _ episodeIndex) => Lerobot.padded 0 episodeIndex
  | episode id | segment id => id ++ "/meta"
  | configIndex _ segmentId => segmentId
  | upload id => id ++ "/status"

def text (key : TikvKey) : List Char := pathText '/' (key.parts.map String.toList) key.last.toList

end TikvKey

/-- `KeyBuilder` joins its parts to the path of the root. -/
theorem buildKey_path (parts : List String) (last : String) : buildKey (parts ++ [last]) =
    utf8 (String.ofList (pathText '/' (("" :: "roboflow" :: "v1" :: parts).map String.toList) last.toList)) := by
  have join : ∀ parts : List String,
      (parts.flatMap fun part => '/' :: part.toList) ++ ('/' :: last.toList) =
        '/' :: pathText '/' (parts.map String.toList) last.toList := by
    intro parts
    induction parts with
    | nil => rfl
    | cons part parts ih =>
      rw [List.flatMap_cons, List.append_assoc, ih, List.map_cons, pathText, List.cons_append]
  rw [buildKey, utf8_inj, ← String.toList_inj, buildWithPrefix_toList, String.toList_ofList,
    List.flatMap_append, List.flatMap_singleton, join]
  rfl

theorem TikvKey.bytes_eq (key : TikvKey) : key.bytes = utf8 (String.ofList key.text) := by
  cases key with
  | job fileHash => exact buildKey_path ["jobs"] fileHash
  | lock resource => exact buildKey_path ["locks"] resource
  | state fileHash => exact buildKey_path ["state"] fileHash
  | heartbeat podId => exact buildKey_path ["heartbeat"] podId
  | config configHash => exact buildKey_path ["configs"] configHash
  | scannerLock => exact buildKey_path ["system"] "scanner_lock"
  | batch key =>
    cases key with
    | spec batchId => exact buildKey_path ["batch", "specs"] batchId
    | status batchId => exact buildKey_path ["batch", "statuses"] batchId
    | phase current batchId => exact buildKey_path ["batch", "index", "phase", current.text] batchId
    | unit batchId unitId => exact buildKey_path ["batch", "workunits", batchId] unitId
    | pending batchId unitId => exact buildKey_path ["batch", "pending", batchId] unitId
  | metadata batchId key =>
    cases key <;>
      simp only [bytes, MetadataKey.bytes, taskCounterKey, taskKey, featureKey, episodeMetadataKey,
        metadataPrefix, utf8_inj, ← String.toList_inj] <;>
      simp [text, parts, last, pathText]
  | stats key =>
    cases key <;>
      simp only [bytes, StatsKey.bytes, StatsKeys.batchMeta, StatsKeys.episode, utf8_inj, ← String.toList_inj] <;>
      simp [text, parts, last, pathText]
  | merge jobId | episodeCounter batchId =>
    simp only [bytes, utf8_inj, ← String.toList_inj]
    simp [text, parts, last, pathText]
  | episode id | segment id | upload id =>
    simp only [bytes, Catalog.episodeKey, Catalog.metadataKey, Catalog.uploadKey, Catalog.buildKey,
      utf8_inj, ← String.toList_inj]
    simp [text, parts, last, pathText]
  | configIndex configHash segmentId =>
    simp only [bytes, Catalog.configIndexKey, Catalog.buildKey, utf8_inj, ← String.toList_inj]
    simp [text, parts, last, pathText]

/-- An accepted id has a colon, which no word of the families has. -/
theorem validateBatchId_colon (accepted : validateBatchId batchId = .ok ()) : ':' ∈ batchId.toList := by
  simp only [validateBatchId] at accepted
  repeat' split at accepted
  all_goals cases accepted
  rename_i colon label parts _ _ _ _
  have separator : colon = ':' := by
    have := List.head?_dropWhile_not (· ≠ ':') batchId.toList
    rw [parts] at this
    simpa using this
  rw [← List.takeWhile_append_dropWhile (p := (· ≠ ':')) (l := batchId.toList), parts, separator]
  exact List.mem_append_right _ List.mem_cons_self

theorem TikvKey.parts_slashFree {key : TikvKey} (valid : key.Valid) : ∀ part ∈ key.parts, SlashFree part := by
  cases key with
  | batch key =>
    cases key with
    | spec batchId | status batchId => simp [parts, SlashFree]
    | phase current batchId =>
      have named := current.text_slashFree
      simpa [parts, SlashFree] using named
    | unit batchId unitId | pending batchId unitId =>
      have free := validateBatchId_slashFree valid
      simpa [parts, SlashFree] using free
  | metadata batchId key =>
    have free := validateBatchId_slashFree valid
    cases key <;> simpa [parts, SlashFree] using free
  | stats key =>
    cases key with
    | batchMeta batchId | episode batchId index =>
      have free := validateBatchId_slashFree valid
      simpa [parts, SlashFree] using free
  | configIndex configHash segmentId =>
    have free : SlashFree configHash := valid
    simpa [parts, SlashFree] using free
  | _ => simp [parts, SlashFree]

theorem TikvKey.separate {key : TikvKey} (valid : key.Valid) :
    Separate '/' (key.parts.map String.toList) := by
  intro part member
  obtain ⟨word, inside, rfl⟩ := List.mem_map.mp member
  exact parts_slashFree valid word inside

/-! ### No two keys are the same -/

/-- The first words of a key, up to the one that may be a batch id. -/
def TikvKey.words (text : List Char) : List String := (segments '/' text).map String.ofList

theorem TikvKey.words_text {key : TikvKey} (valid : key.Valid) :
    words key.text = key.parts ++ (segments '/' key.last.toList).map String.ofList := by
  rw [words, text, segments_pathText (separate valid), List.map_append, List.map_map]
  simp

/-- Which builder made a key. -/
inductive Family where
  | jobs | locks | states | heartbeats | configs | system | batches | metadata | merges | episodeCounters
  | stats | episodes | segments | configIndex | uploads
  deriving DecidableEq

def TikvKey.family : TikvKey → Family
  | job _ => .jobs
  | lock _ => .locks
  | state _ => .states
  | heartbeat _ => .heartbeats
  | config _ => .configs
  | scannerLock => .system
  | batch _ => .batches
  | metadata _ _ => .metadata
  | merge _ => .merges
  | episodeCounter _ => .episodeCounters
  | stats _ => .stats
  | episode _ => .episodes
  | segment _ => .segments
  | configIndex _ _ => .configIndex
  | upload _ => .uploads

/-- The words of `batch/key.rs` that stand where a metadata key has its batch id. -/
def batchWords : List String := ["specs", "statuses", "workunits", "pending", "index"]

theorem notMem_batchWords (accepted : validateBatchId batchId = .ok ()) : batchId ∉ batchWords := by
  intro member
  have plain : ∀ word ∈ batchWords, ':' ∉ word.toList := by decide
  exact plain batchId member (validateBatchId_colon accepted)

def catalogFamilies : List (String × Family) :=
  [("ep", .episodes), ("seg", .segments), ("idx", .configIndex), ("up", .uploads)]

def rootFamilies : List (String × Family) :=
  [("jobs", .jobs), ("locks", .locks), ("state", .states), ("heartbeat", .heartbeats), ("configs", .configs),
    ("system", .system), ("merge", .merges)]

/-- The family of a key, from its words. -/
def familyOf : List String → Option Family
  | "stats" :: _ => some .stats
  | "roboflow" :: word :: _ => catalogFamilies.lookup word
  | "" :: "batch" :: _ => some .episodeCounters
  | "" :: "roboflow" :: "v1" :: "batch" :: word :: _ =>
    some (if word ∈ batchWords then .batches else .metadata)
  | "" :: "roboflow" :: "v1" :: word :: _ => rootFamilies.lookup word
  | _ => none

theorem familyOf_words {key : TikvKey} (valid : key.Valid) :
    familyOf (TikvKey.words key.text) = some key.family := by
  rw [TikvKey.words_text valid]
  cases key with
  | batch key => cases key <;> rfl
  | metadata batchId key =>
    have notWord := notMem_batchWords valid
    cases key <;> simp [TikvKey.parts, familyOf, notWord, TikvKey.family]
  | stats key => cases key <;> rfl
  | _ => rfl

/-- The word after `batch` tells the keys of `batch/key.rs` apart, and what is between it and the
last slash has no slash. -/
theorem BatchKey.eq_of_text {key other : BatchKey} (valid : (TikvKey.batch key).Valid)
    (otherValid : (TikvKey.batch other).Valid)
    (same : (TikvKey.batch key).text = (TikvKey.batch other).text) : key = other := by
  have words := congrArg TikvKey.words same
  rw [TikvKey.words_text valid, TikvKey.words_text otherValid] at words
  cases key <;> cases other <;>
    simp [TikvKey.parts, TikvKey.last, TikvKey.text, pathText, BatchPhase.text_injective.eq_iff] at words same ⊢
  case spec.spec | status.status => exact String.toList_inj.mp same
  case phase.phase | unit.unit | pending.pending =>
    obtain ⟨rfl, -⟩ := words
    simpa [String.toList_inj] using same

theorem TikvKey.metadata_word (valid : (metadata batchId key).Valid) :
    (words (metadata batchId key).text)[4]? = some batchId := by
  rw [words_text valid]
  cases key <;> rfl

/-- Every key of the store is built in one way only. -/
theorem TikvKey.bytes_injective {key other : TikvKey} (valid : key.Valid) (otherValid : other.Valid)
    (same : key.bytes = other.bytes) : key = other := by
  have text : key.text = other.text := by
    rw [bytes_eq, bytes_eq, utf8_inj] at same
    exact String.ofList_injective same
  have family : key.family = other.family := by
    have read := familyOf_words valid
    rw [text, familyOf_words otherValid] at read
    exact (Option.some.inj read).symm
  cases key <;> cases other <;> try cases family
  case batch.batch => rw [BatchKey.eq_of_text valid otherValid text]
  case stats.stats => rw [StatsKey.bytes_injective (utf8_injective same)]
  case metadata.metadata =>
    have id := metadata_word valid
    rw [text, metadata_word otherValid, Option.some.injEq] at id
    subst id
    rw [MetadataKey.bytes_inj.mp same]
  case configIndex.configIndex =>
    have words := congrArg TikvKey.words text
    rw [words_text valid, words_text otherValid] at words
    obtain ⟨rfl, -⟩ : _ = _ ∧ _ := by simpa [parts] using words
    simpa [TikvKey.text, parts, last, pathText, String.toList_inj] using text
  case scannerLock.scannerLock => rfl
  all_goals simpa [TikvKey.text, parts, last, pathText, String.toList_inj] using text

/-! ### What a scan reaches -/

/-- The prefixes that the repository scans through `TikvClient`; the catalog's pool ends its scans elsewhere. -/
inductive TikvScan where
  /-- `HeartbeatKeys::prefix`. -/
  | heartbeats
  /-- `BatchKeys::specs_prefix`. -/
  | specs
  /-- `BatchKeys::statuses_prefix`. -/
  | statuses
  /-- `WorkUnitKeys::prefix`. -/
  | workUnits
  /-- `WorkUnitKeys::pending_prefix`. -/
  | pending
  /-- `BatchIndexKeys::phase_prefix`. -/
  | phase (current : BatchPhase)
  /-- `WorkUnitKeys::batch_prefix`. -/
  | unitsOf (batchId : String)
  /-- `WorkUnitKeys::pending_batch_prefix`. -/
  | pendingOf (batchId : String)
  /-- `MetadataKeys::task_prefix`. -/
  | tasks (batchId : String)
  /-- `MetadataKeys::feature_prefix`. -/
  | features (batchId : String)
  /-- `MetadataKeys::episode_metadata_prefix`. -/
  | episodes (batchId : String)
  /-- `StatsKeys::batch_prefix`. -/
  | stats (batchId : String)

namespace TikvScan

def bytes : TikvScan → Bytes
  | heartbeats => utf8 (keyPrefix ++ "heartbeat/")
  | specs => buildKey ["batch", "specs"]
  | statuses => buildKey ["batch", "statuses"]
  | workUnits => buildKey ["batch", "workunits"]
  | pending => buildKey ["batch", "pending"]
  | phase current => buildKey ["batch", "index", "phase", current.text]
  | unitsOf batchId => batchPrefix batchId
  | pendingOf batchId => pendingBatchPrefix batchId
  | tasks batchId => utf8 (metadataPrefix ++ "/" ++ batchId ++ "/tasks/")
  | features batchId => featurePrefix batchId
  | episodes batchId => utf8 (metadataPrefix ++ "/" ++ batchId ++ "/metadata/episode/")
  | stats batchId => utf8 ("stats/" ++ batchId ++ "/")

def Valid : TikvScan → Prop
  | unitsOf batchId | pendingOf batchId | tasks batchId | features batchId | episodes batchId
  | stats batchId => validateBatchId batchId = .ok ()
  | _ => True

def parts : TikvScan → List String
  | heartbeats => ["", "roboflow", "v1", "heartbeat"]
  | specs | statuses | workUnits | pending => ["", "roboflow", "v1", "batch"]
  | phase _ => ["", "roboflow", "v1", "batch", "index", "phase"]
  | unitsOf _ => ["", "roboflow", "v1", "batch", "workunits"]
  | pendingOf _ => ["", "roboflow", "v1", "batch", "pending"]
  | tasks batchId => ["", "roboflow", "v1", "batch", batchId, "tasks"]
  | features batchId => ["", "roboflow", "v1", "batch", batchId, "features"]
  | episodes batchId => ["", "roboflow", "v1", "batch", batchId, "metadata", "episode"]
  | stats batchId => ["stats", batchId]

/-- Where the prefix stops: at a slash, or in the middle of a word that may go on. -/
def last : TikvScan → String
  | specs => "specs"
  | statuses => "statuses"
  | workUnits => "workunits"
  | pending => "pending"
  | phase current => current.text
  | unitsOf batchId | pendingOf batchId => batchId
  | heartbeats | tasks _ | features _ | episodes _ | stats _ => ""

/-- The keys a scan returns: those it is meant for, the metadata of batches whose id begins with the
word it stops in, and the units of batches whose id begins with the id it stops in. -/
def Reaches : TikvScan → TikvKey → Prop
  | heartbeats, .heartbeat _ | specs, .batch (.spec _) | statuses, .batch (.status _)
  | workUnits, .batch (.unit _ _) | pending, .batch (.pending _ _) => True
  | specs, .metadata batchId _ => "specs".toList <+: batchId.toList
  | statuses, .metadata batchId _ => "statuses".toList <+: batchId.toList
  | workUnits, .metadata batchId _ => "workunits".toList <+: batchId.toList
  | pending, .metadata batchId _ => "pending".toList <+: batchId.toList
  | phase current, .batch (.phase stored _) => current = stored
  | unitsOf batchId, .batch (.unit owner _) => batchId.toList <+: owner.toList
  | pendingOf batchId, .batch (.pending owner _) => batchId.toList <+: owner.toList
  | tasks batchId, .metadata owner (.task _) => batchId = owner
  | features batchId, .metadata owner (.feature _) => batchId = owner
  | episodes batchId, .metadata owner (.episode _) => batchId = owner
  | stats batchId, .stats (.batchMeta owner) | stats batchId, .stats (.episode owner _) => batchId = owner
  | _, _ => False

def text (scan : TikvScan) : List Char := pathText '/' (scan.parts.map String.toList) scan.last.toList

theorem bytes_eq (scan : TikvScan) : scan.bytes = utf8 (String.ofList scan.text) := by
  cases scan with
  | specs => exact buildKey_path ["batch"] "specs"
  | statuses => exact buildKey_path ["batch"] "statuses"
  | workUnits => exact buildKey_path ["batch"] "workunits"
  | pending => exact buildKey_path ["batch"] "pending"
  | phase current => exact buildKey_path ["batch", "index", "phase"] current.text
  | unitsOf batchId => exact buildKey_path ["batch", "workunits"] batchId
  | pendingOf batchId => exact buildKey_path ["batch", "pending"] batchId
  | heartbeats | tasks batchId | features batchId | episodes batchId | stats batchId =>
    simp only [bytes, keyPrefix, metadataPrefix, featurePrefix, utf8_inj, ← String.toList_inj]
    simp [text, parts, last, pathText]

theorem separate {scan : TikvScan} (valid : scan.Valid) :
    Separate '/' (scan.parts.map String.toList) ∧ '/' ∉ scan.last.toList := by
  cases scan with
  | phase current =>
    have named := current.text_slashFree
    simpa [parts, last, Separate, SlashFree] using named
  | unitsOf batchId | pendingOf batchId | tasks batchId | features batchId | episodes batchId
  | stats batchId =>
    have free := validateBatchId_slashFree valid
    simpa [parts, last, Separate, SlashFree] using free
  | _ => simp [parts, last, Separate]

theorem inScan_iff_begins {scan : TikvScan} {key : TikvKey} (valid : scan.Valid) (keyValid : key.Valid) :
    inScan scan.bytes key.bytes = true ↔ Begins '/' (scan.parts.map String.toList) scan.last.toList
      (key.parts.map String.toList) key.last.toList := by
  rw [bytes_eq, TikvKey.bytes_eq, inScan_utf8, utf8_prefix_iff, String.toList_ofList, String.toList_ofList]
  exact pathText_prefix_iff (separate valid).2 (separate valid).1 (TikvKey.separate keyValid)

/-- The name of a phase begins no other phase's name. -/
theorem phase_text_prefix_iff (current stored : BatchPhase) :
    current.text.toList <+: stored.text.toList ↔ current = stored := by
  cases current <;> cases stored <;> decide

theorem inScan_metadata {scan : TikvScan} (valid : scan.Valid) (accepted : validateBatchId batchId = .ok ())
    (key : MetadataKey) : inScan scan.bytes (TikvKey.metadata batchId key).bytes = true ↔
      scan.Reaches (.metadata batchId key) := by
  have notWord : ∀ word ∈ batchWords, ¬word = batchId :=
    fun word member same => notMem_batchWords accepted (same ▸ member)
  simp only [batchWords, List.forall_mem_cons, List.not_mem_nil, false_implies, implies_true] at notWord
  rw [inScan_iff_begins valid (by cases key <;> exact accepted)]
  cases scan <;> cases key <;>
    simp [-String.reduceToList, parts, last, TikvKey.parts, TikvKey.last, Begins, Reaches, String.toList_inj, notWord]
  -- The counter has no slash after its batch id.
  all_goals exact fun _ => by decide

theorem inScan_batch {scan : TikvScan} (valid : scan.Valid) {key : BatchKey}
    (keyValid : (TikvKey.batch key).Valid) : inScan scan.bytes (TikvKey.batch key).bytes = true ↔
      scan.Reaches (.batch key) := by
  rw [inScan_iff_begins valid keyValid]
  cases scan with
  | tasks batchId | features batchId | episodes batchId =>
    have notWord := notMem_batchWords valid
    simp only [batchWords, List.mem_cons, List.not_mem_nil, or_false, not_or] at notWord
    cases key <;> simp [-String.reduceToList, parts, TikvKey.parts, Begins, Reaches, String.toList_inj, notWord]
  | phase current =>
    have names := phase_text_prefix_iff current
    cases key <;> simp [parts, last, TikvKey.parts, TikvKey.last, Begins, Reaches, names]
  | _ => cases key <;> simp [parts, last, TikvKey.parts, TikvKey.last, Begins, Reaches]

/-- Between accepted ids, a scan reaches the keys it is meant for and those whose id goes on from its
last word, and no others. -/
theorem inScan_iff_reaches {scan : TikvScan} {key : TikvKey} (valid : scan.Valid) (keyValid : key.Valid) :
    inScan scan.bytes key.bytes = true ↔ scan.Reaches key := by
  cases key with
  | batch key => exact inScan_batch valid keyValid
  | metadata batchId key => exact inScan_metadata valid (by cases key <;> exact keyValid) key
  | stats key =>
    rw [inScan_iff_begins valid keyValid]
    cases scan <;> cases key <;> simp [-String.reduceToList, parts, last, TikvKey.parts, TikvKey.last, Begins, Reaches,
      String.toList_inj]
  | _ =>
    rw [inScan_iff_begins valid keyValid]
    cases scan <;> simp [parts, last, TikvKey.parts, TikvKey.last, Begins, Reaches]

end TikvScan

/-- For all keys made from accepted ids: each is made in one way only, and a scan returns exactly the
keys it reaches. -/
theorem keys_apart_and_scanned (key other : TikvKey) (scan : TikvScan) (valid : key.Valid)
    (otherValid : other.Valid) (scanValid : scan.Valid) :
    (key.bytes = other.bytes ↔ key = other) ∧ (inScan scan.bytes key.bytes = true ↔ scan.Reaches key) :=
  ⟨⟨TikvKey.bytes_injective valid otherValid, congrArg TikvKey.bytes⟩, TikvScan.inScan_iff_reaches scanValid valid⟩

/-- The listing of all specs returns the task counter of a batch of the namespace `specs-old`. -/
theorem specs_scan_reaches_counter :
    ((TikvKey.metadata "specs-old:a" .taskCounter).bytes = (TikvKey.batch (.spec "specs-old:a")).bytes ↔
      TikvKey.metadata "specs-old:a" .taskCounter = .batch (.spec "specs-old:a")) ∧
    (inScan TikvScan.specs.bytes (TikvKey.metadata "specs-old:a" .taskCounter).bytes = true ↔
      "specs".toList <+: "specs-old:a".toList) :=
  keys_apart_and_scanned (.metadata "specs-old:a" .taskCounter) (.batch (.spec "specs-old:a")) .specs rfl rfl trivial

end Roboflow.Batch
