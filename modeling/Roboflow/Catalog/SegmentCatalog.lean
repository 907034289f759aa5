import Roboflow.Library.Bincode
import Roboflow.Library.Machine

/-! The segment catalog of `catalog/catalog_impl.rs`: segment records under their
ids, and an index of keys that name a segment by its config hash. The records
behave as a map from ids to segments; the lookup through the index does not find
them, because the scan ends right after its prefix and the id is looked for one
position too far. -/
namespace Roboflow.Catalog
open Library Library.Codec

/-- `SegmentMetaData`. Signed timestamps are kept as the bits that are written. -/
structure SegmentMetaData where
  segmentId : Text
  datasetName : Text
  configHash : Text
  storagePrefix : Text
  episodeIds : Vec Text
  totalFrames : U64
  totalBytes : U64
  startNs : U64
  endNs : U64
  createdAt : U64
  updateVersion : U64
  deriving DecidableEq

/-- How records are written and read. What the catalog relies on is that a written record is read back. -/
structure RecordFormat (α : Type) where
  encode : α → Bytes
  decode : Bytes → Except DecodeError α
  decode_encode : ∀ record, decode (encode record) = .ok record

/-- The format of a codec. -/
def formatOf (codec : Codec α) : RecordFormat α := ⟨codec.encode, codec.read, codec.read_encode⟩

/-- The fields in the order in which bincode writes and reads them. -/
def segmentFields : Codec SegmentMetaData :=
  (text.pair (text.pair (text.pair (text.pair ((vec text).pair (u64.pair (u64.pair (u64.pair
    (u64.pair (u64.pair u64)))))))))).iso
    { toFun := fun (a, b, c, d, e, f, g, h, i, j, k) => ⟨a, b, c, d, e, f, g, h, i, j, k⟩
      invFun := fun s => (s.segmentId, s.datasetName, s.configHash, s.storagePrefix, s.episodeIds,
        s.totalFrames, s.totalBytes, s.startNs, s.endNs, s.createdAt, s.updateVersion) }

/-! ### Keys -/

/-- `KeyBuilder::build` of `catalog/key.rs`. -/
def buildKey (space : String) (parts : List String) : Bytes :=
  utf8 ("roboflow/" ++ space ++ "/" ++ "/".intercalate parts)

/-- `SegmentKey::metadata`. -/
def metadataKey (segmentId : String) : Bytes := buildKey "seg" [segmentId, "meta"]

/-- `SegmentKey::config_index`. -/
def configIndexKey (configHash segmentId : String) : Bytes :=
  buildKey "idx" ["config", configHash, segmentId]

/-- `TiKVPool::scan_prefix`: the range ends at the prefix followed by a zero byte. -/
def scanPrefix (store : Kv Bytes Bytes) (start : Bytes) (limit : Nat) : List Bytes :=
  (store.scan (fun key => start ≤ key && key < start ++ [0]) limit).map Prod.fst

/-! ### Operations -/

section Operations
-- `encode` and `decode` of `catalog/schema.rs`, which are bincode's.
variable (format : RecordFormat SegmentMetaData)

def registerSegment (store : Kv Bytes Bytes) (segment : SegmentMetaData) : Kv Bytes Bytes :=
  store.putAll [(metadataKey segment.segmentId.1, format.encode segment),
    (configIndexKey segment.configHash.1 segment.segmentId.1, [])]

def getSegment (store : Kv Bytes Bytes) (segmentId : String) :
    Except DecodeError (Option SegmentMetaData) :=
  match store.get (metadataKey segmentId) with
  | none => .ok none
  | some value => (format.decode value).map some

/-- The loop of `get_segment_by_config` over the scanned keys. `from_utf8_lossy`
gives back the text of a key; a key that is no text does not occur. -/
def firstSegment (store : Kv Bytes Bytes) : List Bytes → Except DecodeError (Option SegmentMetaData)
  | [] => .ok none
  | key :: rest =>
    match (segments 47 key)[5]?.bind ofUtf8? with
    | none => firstSegment store rest
    | some segmentId =>
      match getSegment format store segmentId with
      | .error e => .error e
      | .ok (some segment) => .ok (some segment)
      | .ok none => firstSegment store rest

def getSegmentByConfig (store : Kv Bytes Bytes) (configHash : String) :
    Except DecodeError (Option SegmentMetaData) :=
  firstSegment format store (scanPrefix store (utf8 ("roboflow/idx/config/" ++ configHash ++ "/")) 100)

def updateSegment (store : Kv Bytes Bytes) (segment : SegmentMetaData) : Kv Bytes Bytes :=
  store.put (metadataKey segment.segmentId.1) (format.encode segment)

def deleteSegment (store : Kv Bytes Bytes) (segmentId : String) :
    Kv Bytes Bytes × Except DecodeError Unit :=
  match getSegment format store segmentId with
  | .error e => (store, .error e)
  | .ok none => (store, .ok ())
  | .ok (some segment) =>
    ((store.delete (configIndexKey segment.configHash.1 segmentId)).delete (metadataKey segmentId),
      .ok ())

inductive CatalogCall where
  | register (segment : SegmentMetaData)
  | update (segment : SegmentMetaData)
  | delete (segmentId : String)

/-- The catalog's operations, one after the other. -/
def catalog : Machine (Kv Bytes Bytes) CatalogCall (Except DecodeError Unit) where
  step store
    | .register segment => some (registerSegment format store segment, .ok ())
    | .update segment => some (updateSegment format store segment, .ok ())
    | .delete segmentId => some (deleteSegment format store segmentId)

end Operations

variable {format : RecordFormat SegmentMetaData}

/-! ### The records are a map -/

/-- What the calls of a history leave stored, id by id. -/
def stored : History (Kv Bytes Bytes) CatalogCall (Except DecodeError Unit) → Kv String SegmentMetaData
  | [] => .empty
  | e :: older =>
    match e.act with
    | .register segment | .update segment => (stored older).put segment.segmentId.1 segment
    | .delete segmentId => (stored older).delete segmentId

theorem metadataKey_eq (segmentId : String) :
    metadataKey segmentId = utf8 "roboflow/seg/" ++ (utf8 segmentId ++ utf8 "/meta") := by
  have joined : "/".intercalate [segmentId, "meta"] = segmentId ++ "/" ++ "meta" := rfl
  have ends : utf8 "/" ++ utf8 "meta" = utf8 "/meta" := by decide
  rw [metadataKey, buildKey, joined, utf8_append _ (segmentId ++ "/" ++ "meta"), utf8_append _ "meta",
    utf8_append segmentId, List.append_assoc (utf8 segmentId), ends]
  rfl

theorem metadataKey_injective : Function.Injective metadataKey := by
  intro a b same
  rw [metadataKey_eq, metadataKey_eq, List.append_cancel_left_eq, List.append_cancel_right_eq,
    utf8_inj] at same
  exact same

theorem metadataKey_ne_configIndexKey (segmentId configHash other : String) :
    metadataKey segmentId ≠ configIndexKey configHash other := by
  intro same
  rw [metadataKey_eq, configIndexKey, buildKey, utf8_append] at same
  have front := congrArg (fun bytes => bytes[9]?) same
  revert front
  rw [List.getElem?_append_left (by decide), List.getElem?_append_left (by decide)]
  decide

/-- The store holds the encoded record of exactly the mapped ids. -/
def Agrees (format : RecordFormat SegmentMetaData) (store : Kv Bytes Bytes) (records : Kv String SegmentMetaData) :
    Prop :=
  ∀ segmentId, store.get (metadataKey segmentId) = (records.get segmentId).map format.encode

theorem Agrees.getSegment (agrees : Agrees format store records) (segmentId : String) :
    getSegment format store segmentId = .ok (records.get segmentId) := by
  simp only [Catalog.getSegment, agrees segmentId]
  cases records.get segmentId with
  | none => rfl
  | some segment =>
    simp only [Option.map_some, format.decode_encode]
    rfl

theorem Agrees.update (agrees : Agrees format store records) (segment : SegmentMetaData) :
    Agrees format (updateSegment format store segment) (records.put segment.segmentId.1 segment) := by
  intro segmentId
  simp only [updateSegment, Kv.get_put, metadataKey_injective.eq_iff]
  split
  · rfl
  · exact agrees segmentId

theorem Agrees.register (agrees : Agrees format store records) (segment : SegmentMetaData) :
    Agrees format (registerSegment format store segment) (records.put segment.segmentId.1 segment) := by
  intro segmentId
  have untouched := Kv.get_put_ne (updateSegment format store segment)
    (metadataKey_ne_configIndexKey segmentId segment.configHash.1 segment.segmentId.1) []
  exact untouched.trans (agrees.update segment segmentId)

theorem Agrees.delete (agrees : Agrees format store records) (segmentId : String) :
    Agrees format (deleteSegment format store segmentId).1 (records.delete segmentId) := by
  intro other
  simp only [deleteSegment, agrees.getSegment segmentId, Kv.get_delete]
  cases present : records.get segmentId with
  | none =>
    simp only [agrees other]
    split
    · rename_i same
      rw [same, present]
    · rfl
  | some segment =>
    simp only [Kv.get_delete, metadataKey_injective.eq_iff,
      metadataKey_ne_configIndexKey other segment.configHash.1 segmentId, if_false]
    split
    · rfl
    · exact agrees other

/-- After any calls, `get_segment` reads the map the calls describe. -/
theorem catalog_agrees (run : Run (catalog format) .empty history store) :
    Agrees format store (stored history) := by
  induction run with
  | start => exact fun _ => rfl
  | @next history s call s' out _ moved ih =>
    cases call with
    | register segment =>
      cases moved
      exact ih.register segment
    | update segment =>
      cases moved
      exact ih.update segment
    | delete segmentId =>
      simp only [catalog, Option.some.injEq, Prod.ext_iff] at moved
      obtain ⟨rfl, rfl⟩ := moved
      exact ih.delete segmentId

/-! ### The lookup through the index -/

/-- A scan of the index returns its prefix, or nothing. -/
theorem mem_scanPrefix (member : key ∈ scanPrefix store start limit) : key = start := by
  obtain ⟨⟨found, value⟩, scanned, rfl⟩ := List.mem_map.mp member
  have inside := (List.mem_filter.mp (List.mem_of_mem_take scanned)).2
  rw [Bool.and_eq_true, decide_eq_true_eq, decide_eq_true_eq] at inside
  exact (mem_range_bot_iff (fun _ => UInt8.zero_le)).mp inside

/-- The prefix of a hash without a slash has five segments, the last one empty. -/
theorem indexPrefix_segments (configHash : String) (free : '/' ∉ configHash.toList) :
    (segments 47 (utf8 ("roboflow/idx/config/" ++ configHash ++ "/"))).length = 5 := by
  have none : (utf8 configHash).count 47 = 0 := by
    rw [List.count_eq_zero]
    exact fun slash => free ((ascii_mem_utf8 (c := '/') (by decide)).mp slash)
  rw [length_segments, utf8_append, utf8_append, List.count_append, List.count_append, none]
  decide

/-- Whatever is stored, the lookup of a hash without a slash finds nothing. -/
theorem getSegmentByConfig_eq_none (store : Kv Bytes Bytes) (configHash : String)
    (free : '/' ∉ configHash.toList) : getSegmentByConfig format store configHash = .ok none := by
  have blind : ∀ keys : List Bytes,
      (∀ key ∈ keys, key = utf8 ("roboflow/idx/config/" ++ configHash ++ "/")) →
      firstSegment format store keys = .ok none := by
    intro keys same
    induction keys with
    | nil => rfl
    | cons key rest ih =>
      have short : (segments 47 key)[5]? = none := by
        rw [same key List.mem_cons_self, List.getElem?_eq_none_iff, indexPrefix_segments configHash free]
      simp only [firstSegment, short, Option.bind_none]
      exact ih fun other member => same other (List.mem_cons_of_mem _ member)
  exact blind _ fun key member => mem_scanPrefix member

/-- The answer the records call for: a stored segment of this config hash if there
is one, and nothing otherwise. -/
structure Right (records : Kv String SegmentMetaData) (configHash : String)
    (answer : Except DecodeError (Option SegmentMetaData)) : Prop where
  finds : (∃ segmentId segment, records.get segmentId = some segment ∧
      segment.configHash.1 = configHash) →
    ∃ segmentId segment, answer = .ok (some segment) ∧ segment.configHash.1 = configHash ∧
      records.get segmentId = some segment
  misses : (¬∃ segmentId segment, records.get segmentId = some segment ∧
      segment.configHash.1 = configHash) → answer = .ok none

/-- After any calls: the records are as the calls describe, and the lookup of a
config hash is right exactly when no stored segment has it. -/
theorem segment_lookup_iff (format : RecordFormat SegmentMetaData)
    (history : History (Kv Bytes Bytes) CatalogCall (Except DecodeError Unit)) (store : Kv Bytes Bytes)
    (run : Run (catalog format) .empty history store) (configHash : String) (free : '/' ∉ configHash.toList) :
    (∀ segmentId, getSegment format store segmentId = .ok ((stored history).get segmentId)) ∧
    (Right (stored history) configHash (getSegmentByConfig format store configHash) ↔
      ∀ segmentId segment, (stored history).get segmentId = some segment →
        segment.configHash.1 ≠ configHash) := by
  refine ⟨(catalog_agrees run).getSegment, ?_⟩
  rw [getSegmentByConfig_eq_none store configHash free]
  constructor
  · intro right segmentId segment present named
    obtain ⟨_, _, impossible, -⟩ := right.finds ⟨segmentId, segment, present, named⟩
    cases impossible
  · intro absent
    refine ⟨fun ⟨segmentId, segment, present, named⟩ => ?_, fun _ => rfl⟩
    exact absurd named (absent segmentId segment present)

/-- A segment of one config hash. -/
def segmentOf (segmentId configHash : Text) : SegmentMetaData where
  segmentId := segmentId
  datasetName := ⟨"pick", by decide⟩
  configHash := configHash
  storagePrefix := ⟨"s3://out", by decide⟩
  episodeIds := ⟨[], by decide⟩
  totalFrames := 0
  totalBytes := 0
  startNs := 0
  endNs := 0
  createdAt := 0
  updateVersion := 0

theorem segment_lookup_other_hash :
    ∃ history store, Run (catalog (formatOf segmentFields)) .empty history store ∧ history.length = 1 ∧
      Right (stored history) "cfg-b" (getSegmentByConfig (formatOf segmentFields) store "cfg-b") := by
  let segment := segmentOf ⟨"seg-1", by decide⟩ ⟨"cfg-a", by decide⟩
  let run : Run (catalog (formatOf segmentFields)) .empty _ _ :=
    .next .start (rfl : (catalog (formatOf segmentFields)).step .empty (.register segment) = some _)
  refine ⟨_, _, run, rfl, ((segment_lookup_iff _ _ _ run "cfg-b" (by decide)).2).mpr ?_⟩
  intro segmentId found present
  have only : (Kv.empty.put "seg-1" segment).get segmentId = some found := present
  rw [Kv.get_put, Kv.get_empty] at only
  split at only
  · cases only
    decide
  · cases only

/-- The one registered segment is not found under its own config hash. -/
theorem registered_segment_not_found :
    ∃ history store segment, Run (catalog (formatOf segmentFields)) .empty history store ∧
      history.map (·.act) = [.register segment] ∧ segment.configHash.1 = "cfg-a" ∧
      getSegment (formatOf segmentFields) store "seg-1" = .ok (some segment) ∧
      getSegmentByConfig (formatOf segmentFields) store "cfg-a" = .ok none ∧
      ¬Right (stored history) "cfg-a" (getSegmentByConfig (formatOf segmentFields) store "cfg-a") := by
  let segment := segmentOf ⟨"seg-1", by decide⟩ ⟨"cfg-a", by decide⟩
  let run : Run (catalog (formatOf segmentFields)) .empty _ _ :=
    .next .start (rfl : (catalog (formatOf segmentFields)).step .empty (.register segment) = some _)
  have kept : (Kv.empty.put "seg-1" segment).get "seg-1" = some segment := Kv.get_put_self _ _ _
  have missed : getSegmentByConfig (formatOf segmentFields) (registerSegment (formatOf segmentFields) .empty segment)
      "cfg-a" = .ok none := getSegmentByConfig_eq_none _ _ (by decide)
  refine ⟨_, _, segment, run, rfl, rfl, ?_, missed, fun right => ?_⟩
  · rw [(catalog_agrees run).getSegment "seg-1"]
    exact congrArg Except.ok kept
  · obtain ⟨_, _, found, -⟩ := right.finds ⟨"seg-1", segment, kept, rfl⟩
    rw [missed] at found
    cases found

end Roboflow.Catalog
