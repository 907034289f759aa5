import Roboflow.Catalog.SegmentCatalog

/-! The whole catalog of `catalog/catalog_impl.rs` under any number of clients, each call to the pool one
step. Episodes, segments and upload statuses are kept under keys of their own, so that the clients see
three maps; only `delete_segment` takes more than one step, and deletes when its last one is made. -/
namespace Roboflow.Catalog
open Library Library.Codec

/-! ### Records -/

/-- Signed timestamps are kept as the bits that are written. -/
structure EpisodeMetadata where
  episodeId : Text
  segmentId : Option Text
  datasetName : Text
  frameCount : U64
  totalBytes : U64
  startNs : U64
  endNs : U64
  createdAt : U64
  labels : Vec Text
  updateVersion : U64

def episodeFields : Codec EpisodeMetadata :=
  (text.pair ((option text).pair (text.pair (u64.pair (u64.pair (u64.pair (u64.pair (u64.pair
    ((vec text).pair u64))))))))).iso
    { toFun := fun (a, b, c, d, e, f, g, h, i, j) => ⟨a, b, c, d, e, f, g, h, i, j⟩
      invFun := fun r => (r.episodeId, r.segmentId, r.datasetName, r.frameCount, r.totalBytes,
        r.startNs, r.endNs, r.createdAt, r.labels, r.updateVersion) }

inductive UploadState where
  | pending | inProgress | complete | failed
  deriving DecidableEq

/-- A variant is written as its index. -/
def UploadState.index : UploadState → U32
  | .pending => 0
  | .inProgress => 1
  | .complete => 2
  | .failed => 3

def UploadState.ofIndex? (index : U32) : Option UploadState :=
  if index = 0 then some .pending
  else if index = 1 then some .inProgress
  else if index = 2 then some .complete
  else if index = 3 then some .failed
  else none

theorem UploadState.ofIndex?_index (state : UploadState) : ofIndex? state.index = some state := by
  cases state <;> rfl

theorem UploadState.index_of_ofIndex? (index : U32) (state : UploadState)
    (known : ofIndex? index = some state) : state.index = index := by
  unfold ofIndex? at known
  split at known
  · cases known
    symm
    assumption
  · split at known
    · cases known
      symm
      assumption
    · split at known
      · cases known
        symm
        assumption
      · split at known
        · cases known
          symm
          assumption
        · cases known

/-- The error of an unknown index names it by its low byte. -/
def uploadState : Codec UploadState :=
  u32.restrict UploadState.index UploadState.ofIndex? (fun index => .invalidTag (UInt8.ofNat index))
    UploadState.ofIndex?_index UploadState.index_of_ofIndex?

structure UploadStatus where
  episodeId : Text
  totalFiles : U32
  uploadedFiles : U32
  failedFiles : U32
  uploadedBytes : U64
  status : UploadState
  updatedAt : U64
  error : Option Text

def uploadFields : Codec UploadStatus :=
  (text.pair (u32.pair (u32.pair (u32.pair (u64.pair (uploadState.pair (u64.pair
    (option text)))))))).iso
    { toFun := fun (a, b, c, d, e, f, g, h) => ⟨a, b, c, d, e, f, g, h⟩
      invFun := fun r => (r.episodeId, r.totalFiles, r.uploadedFiles, r.failedFiles, r.uploadedBytes,
        r.status, r.updatedAt, r.error) }

/-- `EpisodeKey::metadata`. -/
def episodeKey (episodeId : String) : Bytes := buildKey "ep" [episodeId, "meta"]

/-- `UploadKey::status`. -/
def uploadKey (episodeId : String) : Bytes := buildKey "up" [episodeId, "status"]

/-! ### Clients -/

/-- The operations of `TiKVCatalog`, but the lookup of a segment through the index. -/
inductive CatalogOp where
  | registerEpisode (episode : EpisodeMetadata)
  | updateEpisode (episode : EpisodeMetadata)
  | getEpisode (episodeId : String)
  | episodeExists (episodeId : String)
  | deleteEpisode (episodeId : String)
  | registerSegment (segment : SegmentMetaData)
  | updateSegment (segment : SegmentMetaData)
  | getSegment (segmentId : String)
  | deleteSegment (segmentId : String)
  | setUploadStatus (status : UploadStatus)
  | getUploadStatus (episodeId : String)
  | deleteUploadStatus (episodeId : String)

inductive CatalogAnswer where
  | done
  | failed (error : DecodeError)
  | exists_ (found : Bool)
  | episode (found : Option EpisodeMetadata)
  | segment (found : Option SegmentMetaData)
  | upload (found : Option UploadStatus)

/-- A record read and decoded. -/
def getRecord (format : RecordFormat α) (store : Kv Bytes Bytes) (key : Bytes) : Except DecodeError (Option α) :=
  match store.get key with
  | none => .ok none
  | some value => (format.decode value).map some

/-- `encode` and `decode` of the three kinds of records. -/
structure Schema where
  episodes : RecordFormat EpisodeMetadata
  segments : RecordFormat SegmentMetaData
  uploads : RecordFormat UploadStatus

/-- The records as bincode writes and reads them. -/
def bincodeSchema : Schema := ⟨formatOf episodeFields, formatOf segmentFields, formatOf uploadFields⟩

def answer (shape : Option α → CatalogAnswer) : Except DecodeError (Option α) → CatalogAnswer
  | .ok found => shape found
  | .error error => .failed error

/-- A client between two steps, or in `delete_segment` after its get. -/
inductive CatalogClient where
  | idle
  | unindexing (segmentId configHash : String)
  | deleting (segmentId : String)

structure CatalogClients where
  store : Kv Bytes Bytes
  clients : Nat → CatalogClient

namespace CatalogClients

def initial : CatalogClients := ⟨.empty, fun _ => .idle⟩

def setClient (s : CatalogClients) (client : Nat) (next : CatalogClient) : CatalogClients :=
  { s with clients := Function.update s.clients client next }

/-- The first step of an operation, with its answer if it is the only one. -/
def start (schema : Schema) (s : CatalogClients) (client : Nat) : CatalogOp → CatalogClients × Option CatalogAnswer
  | .registerEpisode episode | .updateEpisode episode =>
    ({ s with store := s.store.put (episodeKey episode.episodeId.1) (schema.episodes.encode episode) },
      some .done)
  | .getEpisode episodeId =>
    (s, some (answer .episode (getRecord schema.episodes s.store (episodeKey episodeId))))
  | .episodeExists episodeId => (s, some (.exists_ (s.store.get (episodeKey episodeId)).isSome))
  | .deleteEpisode episodeId => ({ s with store := s.store.delete (episodeKey episodeId) }, some .done)
  | .registerSegment segment =>
    ({ s with store := Catalog.registerSegment schema.segments s.store segment }, some .done)
  | .updateSegment segment =>
    ({ s with store := Catalog.updateSegment schema.segments s.store segment }, some .done)
  | .getSegment segmentId => (s, some (answer .segment (Catalog.getSegment schema.segments s.store segmentId)))
  | .deleteSegment segmentId =>
    match Catalog.getSegment schema.segments s.store segmentId with
    | .error error => (s, some (.failed error))
    | .ok none => (s, some .done)
    | .ok (some segment) => (s.setClient client (.unindexing segmentId segment.configHash.1), none)
  | .setUploadStatus status =>
    ({ s with store := s.store.put (uploadKey status.episodeId.1) (schema.uploads.encode status) },
      some .done)
  | .getUploadStatus episodeId =>
    (s, some (answer .upload (getRecord schema.uploads s.store (uploadKey episodeId))))
  | .deleteUploadStatus episodeId =>
    ({ s with store := s.store.delete (uploadKey episodeId) }, some .done)

end CatalogClients

inductive CatalogAct where
  | start (client : Nat) (op : CatalogOp)
  | goOn (client : Nat)

/-- The clients of one catalog. A step shows the operation it ends, with its answer. -/
def catalogClients (schema : Schema) : Machine CatalogClients CatalogAct (Option (CatalogOp × CatalogAnswer)) where
  step s
    | .start client op =>
      match s.clients client with
      | .idle => some ((s.start schema client op).1, (s.start schema client op).2.map fun answer => (op, answer))
      | _ => none
    | .goOn client =>
      match s.clients client with
      | .idle => none
      | .unindexing segmentId configHash =>
        some ({ s with store := s.store.delete (configIndexKey configHash segmentId) }.setClient client
          (.deleting segmentId), none)
      | .deleting segmentId =>
        some ({ s with store := s.store.delete (metadataKey segmentId) }.setClient client .idle,
          some (.deleteSegment segmentId, .done))

/-! ### Three maps -/

structure Records where
  episodes : Kv String EpisodeMetadata
  segments : Kv String SegmentMetaData
  uploads : Kv String UploadStatus

def Records.empty : Records := ⟨.empty, .empty, .empty⟩

/-- What the operations are to do. -/
def Records.apply (r : Records) : CatalogOp → Records × CatalogAnswer
  | .registerEpisode episode | .updateEpisode episode =>
    ({ r with episodes := r.episodes.put episode.episodeId.1 episode }, .done)
  | .getEpisode episodeId => (r, .episode (r.episodes.get episodeId))
  | .episodeExists episodeId => (r, .exists_ (r.episodes.get episodeId).isSome)
  | .deleteEpisode episodeId => ({ r with episodes := r.episodes.delete episodeId }, .done)
  | .registerSegment segment | .updateSegment segment =>
    ({ r with segments := r.segments.put segment.segmentId.1 segment }, .done)
  | .getSegment segmentId => (r, .segment (r.segments.get segmentId))
  | .deleteSegment segmentId => ({ r with segments := r.segments.delete segmentId }, .done)
  | .setUploadStatus status =>
    ({ r with uploads := r.uploads.put status.episodeId.1 status }, .done)
  | .getUploadStatus episodeId => (r, .upload (r.uploads.get episodeId))
  | .deleteUploadStatus episodeId => ({ r with uploads := r.uploads.delete episodeId }, .done)

def records : Machine Records CatalogOp CatalogAnswer where
  step r op := some (r.apply op)

/-! ### Keys of different records -/

theorem buildKey_eq (space id last : String) :
    buildKey space [id, last] = utf8 ("roboflow/" ++ space ++ "/") ++ (utf8 id ++ utf8 ("/" ++ last)) := by
  have joined : "/".intercalate [id, last] = id ++ "/" ++ last := rfl
  rw [buildKey, joined, utf8_append _ (id ++ "/" ++ last), utf8_append _ last, utf8_append id,
    utf8_append "/" last, List.append_assoc]

theorem buildKey_injective (space last : String) :
    Function.Injective fun id => buildKey space [id, last] := by
  intro a b same
  simp only [buildKey_eq, List.append_cancel_left_eq, List.append_cancel_right_eq, utf8_inj] at same
  exact same

/-- The byte that tells the spaces of keys apart. -/
theorem buildKey_byte (space : String) (parts : List String) :
    (buildKey space parts)[9]? = (utf8 space ++ utf8 ("/" ++ "/".intercalate parts))[0]? := by
  have front : (utf8 "roboflow/").length = 9 := by decide
  rw [buildKey, String.append_assoc, String.append_assoc, utf8_append "roboflow/",
    List.getElem?_append_right front.le, front, utf8_append space]

theorem buildKey_ne {space other : String} (parts others : List String)
    (nonempty : utf8 space ≠ [] ∧ utf8 other ≠ []) (different : (utf8 space)[0]? ≠ (utf8 other)[0]?) :
    buildKey space parts ≠ buildKey other others := by
  intro same
  have bytes := congrArg (fun key => key[9]?) same
  simp only [buildKey_byte] at bytes
  rw [List.getElem?_append_left (List.length_pos_iff.mpr nonempty.1),
    List.getElem?_append_left (List.length_pos_iff.mpr nonempty.2)] at bytes
  exact different bytes

theorem episodeKey_ne_metadataKey (a b : String) : episodeKey a ≠ metadataKey b :=
  buildKey_ne _ _ (by decide) (by decide)

theorem episodeKey_ne_uploadKey (a b : String) : episodeKey a ≠ uploadKey b :=
  buildKey_ne _ _ (by decide) (by decide)

theorem episodeKey_ne_configIndexKey (a b c : String) : episodeKey a ≠ configIndexKey b c :=
  buildKey_ne _ _ (by decide) (by decide)

theorem uploadKey_ne_metadataKey (a b : String) : uploadKey a ≠ metadataKey b :=
  buildKey_ne _ _ (by decide) (by decide)

theorem uploadKey_ne_configIndexKey (a b c : String) : uploadKey a ≠ configIndexKey b c :=
  buildKey_ne _ _ (by decide) (by decide)

/-! ### One map -/

/-- The store holds the encodings of a map's records under their keys, and nothing else there. -/
def Stores (format : RecordFormat α) (keyOf : String → Bytes) (store : Kv Bytes Bytes) (map : Kv String α) :
    Prop :=
  ∀ id, store.get (keyOf id) = (map.get id).map format.encode

namespace Stores

variable {format : RecordFormat α} {keyOf : String → Bytes} {store : Kv Bytes Bytes} {map : Kv String α}

theorem getRecord (stores : Stores format keyOf store map) (id : String) :
    Catalog.getRecord format store (keyOf id) = .ok (map.get id) := by
  simp only [Catalog.getRecord, stores id]
  cases map.get id with
  | none => rfl
  | some record =>
    simp only [Option.map_some, format.decode_encode]
    rfl

theorem put (stores : Stores format keyOf store map) (injective : Function.Injective keyOf)
    (id : String) (record : α) :
    Stores format keyOf (store.put (keyOf id) (format.encode record)) (map.put id record) := by
  intro other
  rw [Kv.get_put, Kv.get_put]
  by_cases same : other = id
  · rw [if_pos same, if_pos (congrArg keyOf same)]
    rfl
  · rw [if_neg same, if_neg fun keys => same (injective keys), stores other]

theorem delete (stores : Stores format keyOf store map) (injective : Function.Injective keyOf)
    (id : String) : Stores format keyOf (store.delete (keyOf id)) (map.delete id) := by
  intro other
  rw [Kv.get_delete, Kv.get_delete]
  by_cases same : other = id
  · rw [if_pos same, if_pos (congrArg keyOf same)]
    rfl
  · rw [if_neg same, if_neg fun keys => same (injective keys), stores other]

theorem put_other (stores : Stores format keyOf store map) {key : Bytes} (apart : ∀ id, keyOf id ≠ key)
    (value : Bytes) : Stores format keyOf (store.put key value) map := fun id => by
  rw [Kv.get_put_ne _ (apart id), stores id]

theorem delete_other (stores : Stores format keyOf store map) {key : Bytes}
    (apart : ∀ id, keyOf id ≠ key) : Stores format keyOf (store.delete key) map := fun id => by
  rw [Kv.get_delete_ne _ (apart id), stores id]

end Stores

/-! ### The catalog is three maps -/

structure Represents (schema : Schema) (store : Kv Bytes Bytes) (r : Records) : Prop where
  episodes : Stores schema.episodes episodeKey store r.episodes
  segments : Stores schema.segments metadataKey store r.segments
  uploads : Stores schema.uploads uploadKey store r.uploads

variable {schema : Schema}

theorem represents_empty : Represents schema .empty .empty where
  episodes _ := rfl
  segments _ := rfl
  uploads _ := rfl

namespace Represents

variable {store : Kv Bytes Bytes} {r : Records}

theorem putEpisode (before : Represents schema store r) (episode : EpisodeMetadata) :
    Represents schema (store.put (episodeKey episode.episodeId.1) (schema.episodes.encode episode))
      { r with episodes := r.episodes.put episode.episodeId.1 episode } where
  episodes := before.episodes.put (buildKey_injective "ep" "meta") _ episode
  segments := before.segments.put_other (fun id => (episodeKey_ne_metadataKey _ id).symm) _
  uploads := before.uploads.put_other (fun id => (episodeKey_ne_uploadKey _ id).symm) _

theorem deleteEpisode (before : Represents schema store r) (episodeId : String) :
    Represents schema (store.delete (episodeKey episodeId))
      { r with episodes := r.episodes.delete episodeId } where
  episodes := before.episodes.delete (buildKey_injective "ep" "meta") episodeId
  segments := before.segments.delete_other fun id => (episodeKey_ne_metadataKey _ id).symm
  uploads := before.uploads.delete_other fun id => (episodeKey_ne_uploadKey _ id).symm

theorem putUpload (before : Represents schema store r) (status : UploadStatus) :
    Represents schema (store.put (uploadKey status.episodeId.1) (schema.uploads.encode status))
      { r with uploads := r.uploads.put status.episodeId.1 status } where
  episodes := before.episodes.put_other (fun id => episodeKey_ne_uploadKey id _) _
  segments := before.segments.put_other (fun id => (uploadKey_ne_metadataKey _ id).symm) _
  uploads := before.uploads.put (buildKey_injective "up" "status") _ status

theorem deleteUpload (before : Represents schema store r) (episodeId : String) :
    Represents schema (store.delete (uploadKey episodeId))
      { r with uploads := r.uploads.delete episodeId } where
  episodes := before.episodes.delete_other fun id => episodeKey_ne_uploadKey id _
  segments := before.segments.delete_other fun id => (uploadKey_ne_metadataKey _ id).symm
  uploads := before.uploads.delete (buildKey_injective "up" "status") episodeId

theorem putSegment (before : Represents schema store r) (segment : SegmentMetaData) :
    Represents schema (updateSegment schema.segments store segment)
      { r with segments := r.segments.put segment.segmentId.1 segment } where
  episodes := before.episodes.put_other (fun id => episodeKey_ne_metadataKey id _) _
  segments := before.segments.put metadataKey_injective _ segment
  uploads := before.uploads.put_other (fun id => uploadKey_ne_metadataKey id _) _

theorem deleteSegment (before : Represents schema store r) (segmentId : String) :
    Represents schema (store.delete (metadataKey segmentId))
      { r with segments := r.segments.delete segmentId } where
  episodes := before.episodes.delete_other fun id => episodeKey_ne_metadataKey id _
  segments := before.segments.delete metadataKey_injective segmentId
  uploads := before.uploads.delete_other fun id => uploadKey_ne_metadataKey id _

/-- The index is in none of the maps. -/
theorem putIndex (before : Represents schema store r) (configHash segmentId : String) (value : Bytes) :
    Represents schema (store.put (configIndexKey configHash segmentId) value) r where
  episodes := before.episodes.put_other (fun id => episodeKey_ne_configIndexKey id _ _) value
  segments := before.segments.put_other (fun id => metadataKey_ne_configIndexKey id _ _) value
  uploads := before.uploads.put_other (fun id => uploadKey_ne_configIndexKey id _ _) value

theorem deleteIndex (before : Represents schema store r) (configHash segmentId : String) :
    Represents schema (store.delete (configIndexKey configHash segmentId)) r where
  episodes := before.episodes.delete_other fun id => episodeKey_ne_configIndexKey id _ _
  segments := before.segments.delete_other fun id => metadataKey_ne_configIndexKey id _ _
  uploads := before.uploads.delete_other fun id => uploadKey_ne_configIndexKey id _ _

/-- A segment that is not there needs no deletion. -/
theorem keepSegment (before : Represents schema store r) (segmentId : String)
    (absent : r.segments.get segmentId = none) :
    Represents schema store { r with segments := r.segments.delete segmentId } where
  episodes := before.episodes
  segments := by
    intro other
    rw [before.segments other, Kv.get_delete]
    split
    · rename_i same
      rw [same, absent]
    · rfl
  uploads := before.uploads

end Represents

/-- The first step of an operation: its answer and its effect are those of the maps, or it is a
`delete_segment` that has deleted nothing yet. -/
theorem start_represents {s : CatalogClients} {r : Records} (before : Represents schema s.store r)
    (client : Nat) (op : CatalogOp) :
    match (s.start schema client op).2 with
    | none => Represents schema (s.start schema client op).1.store r
    | some answer => answer = (r.apply op).2 ∧
      Represents schema (s.start schema client op).1.store (r.apply op).1 := by
  cases op with
  | registerEpisode episode => exact ⟨rfl, before.putEpisode episode⟩
  | updateEpisode episode => exact ⟨rfl, before.putEpisode episode⟩
  | getEpisode episodeId =>
    exact ⟨congrArg (answer .episode) (before.episodes.getRecord episodeId), before⟩
  | episodeExists episodeId =>
    refine ⟨congrArg CatalogAnswer.exists_ ?_, before⟩
    rw [before.episodes episodeId, Option.isSome_map]
  | deleteEpisode episodeId => exact ⟨rfl, before.deleteEpisode episodeId⟩
  | registerSegment segment => exact ⟨rfl, (before.putSegment segment).putIndex _ _ _⟩
  | updateSegment segment => exact ⟨rfl, before.putSegment segment⟩
  | getSegment segmentId =>
    exact ⟨congrArg (answer .segment) (Agrees.getSegment before.segments segmentId), before⟩
  | deleteSegment segmentId =>
    have read := Agrees.getSegment before.segments segmentId
    simp only [CatalogClients.start, read]
    cases found : r.segments.get segmentId with
    | none => exact ⟨rfl, before.keepSegment segmentId found⟩
    | some segment => exact before
  | setUploadStatus status => exact ⟨rfl, before.putUpload status⟩
  | getUploadStatus episodeId =>
    exact ⟨congrArg (answer .upload) (before.uploads.getRecord episodeId), before⟩
  | deleteUploadStatus episodeId => exact ⟨rfl, before.deleteUpload episodeId⟩

/-- Every step of a client is a step of the maps, or none. -/
theorem catalogClients_simulates :
    Simulates (catalogClients schema) records id fun s r => Represents schema s.store r := by
  intro s r act s' out before moved
  cases act with
  | start client op =>
    simp only [catalogClients] at moved
    split at moved
    · cases moved
      have stepped := start_represents before client op
      cases answered : (s.start schema client op).2 with
      | none =>
        rw [answered] at stepped
        exact stepped
      | some answer =>
        rw [answered] at stepped
        obtain ⟨same, after⟩ := stepped
        exact ⟨(r.apply op).1, by rw [same]; rfl, after⟩
    · cases moved
  | goOn client =>
    simp only [catalogClients] at moved
    split at moved
    · cases moved
    · cases moved
      exact before.deleteIndex _ _
    · rename_i segmentId _
      cases moved
      exact ⟨_, rfl, before.deleteSegment segmentId⟩

/-- For any clients and any interleaving of their calls to the store, with any ids: the operations answer
as the three maps do when they are taken in the order in which their last calls are made, and the store
holds the maps' records. -/
theorem catalog_linearizable (schema : Schema) (history : History CatalogClients CatalogAct
      (Option (CatalogOp × CatalogAnswer))) (s : CatalogClients)
    (run : Run (catalogClients schema) .initial history s) :
    ∃ specHistory r, Run records .empty specHistory r ∧ Represents schema s.store r ∧
      specHistory.map (fun e => (e.act, e.out)) = shown id history :=
  catalogClients_simulates.run represents_empty run

def oneFile : UploadStatus := ⟨⟨"a/b", by decide⟩, 1, 0, 0, 0, .pending, 0, none⟩

/-- Two clients: a status is set, and the segment and the episode of the same id are deleted. -/
theorem clients_apart : ∃ (history : History CatalogClients CatalogAct
      (Option (CatalogOp × CatalogAnswer))) (s : CatalogClients) (specHistory : History Records CatalogOp
      CatalogAnswer) (r : Records), Run (catalogClients bincodeSchema) .initial history s ∧ history.length = 3 ∧
      Run records .empty specHistory r ∧ Represents bincodeSchema s.store r ∧
      specHistory.map (fun e => (e.act, e.out)) = shown id history := by
  have nothing : Run (catalogClients bincodeSchema) .initial [] .initial := .start
  have run := (nothing.move (.start 0 (.setUploadStatus oneFile)) _ _ rfl).move
    (.start 1 (.deleteEpisode "a/b")) _ _ rfl
  have last := run.move (.start 0 (.deleteUploadStatus "a/b")) _ _ rfl
  obtain ⟨specHistory, r, spec, represents, same⟩ := catalog_linearizable _ _ _ last
  exact ⟨_, _, specHistory, r, last, rfl, spec, represents, same⟩

end Roboflow.Catalog
