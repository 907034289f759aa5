import Roboflow.Library.Bincode
import Roboflow.Tikv.KeySpace

/-! Feature specs of `metadata/types.rs` and the registry that stores them,
`metadata/registry.rs`. The derived encoder leaves out the optional fields that
are `None`, tag byte included; the derived decoder reads every field. So exactly
the specs without a `None` anywhere come back. -/
namespace Roboflow.Metadata
open Library Library.Codec Tikv

structure VideoInfo where
  codec : Text
  fps : U32
  profile : Option Text
  crf : Option U32
  deriving DecidableEq

structure FeatureSpec where
  dtype : Text
  shape : Vec U64
  names : Option (Vec Text)
  videoInfo : Option VideoInfo
  deriving DecidableEq

namespace FeatureSpec

def isCompatible (spec other : FeatureSpec) : Bool :=
  spec.dtype = other.dtype && spec.shape = other.shape

/-- No optional field is `None`, in the spec or in its video description. -/
def Full (spec : FeatureSpec) : Prop :=
  spec.names.isSome ∧ ∃ video, spec.videoInfo = some video ∧ video.profile.isSome ∧ video.crf.isSome

end FeatureSpec

structure FeatureShape where
  dtype : Text
  shape : Vec U64
  isVideo : Bool

/-- `FeatureShape::to_spec`. -/
def FeatureShape.toSpec (shape : FeatureShape) : FeatureSpec where
  dtype := shape.dtype
  shape := shape.shape
  names := none
  videoInfo := if shape.isVideo then
      some { codec := ⟨"libx264", by decide⟩, fps := 30, profile := none, crf := none }
    else none

/-! ### Encoder and decoder -/

/-- An optional field with `skip_serializing_if = "Option::is_none"`. -/
def skipNone (encode : α → Bytes) : Option α → Bytes
  | none => []
  | some value => 1 :: encode value

def VideoInfo.serialize (video : VideoInfo) : Bytes :=
  text.encode video.codec ++ (u32.encode video.fps ++
    (skipNone text.encode video.profile ++ skipNone u32.encode video.crf))

def FeatureSpec.serialize (spec : FeatureSpec) : Bytes :=
  text.encode spec.dtype ++ ((vec u64).encode spec.shape ++
    (skipNone (vec text).encode spec.names ++ skipNone VideoInfo.serialize spec.videoInfo))

/-- Every field of a video description, as the decoder reads them. -/
def videoInfoFields : Codec VideoInfo :=
  (text.pair (u32.pair (text.option.pair u32.option))).iso
    { toFun := fun fields => ⟨fields.1, fields.2.1, fields.2.2.1, fields.2.2.2⟩
      invFun := fun video => (video.codec, video.fps, video.profile, video.crf) }

/-- Every field of a spec, as the decoder reads them. -/
def featureSpecFields : Codec FeatureSpec :=
  (text.pair ((vec u64).pair ((vec text).option.pair videoInfoFields.option))).iso
    { toFun := fun fields => ⟨fields.1, fields.2.1, fields.2.2.1, fields.2.2.2⟩
      invFun := fun spec => (spec.dtype, spec.shape, spec.names, spec.videoInfo) }

def FeatureSpec.deserialize (bytes : Bytes) : Except DecodeError FeatureSpec :=
  featureSpecFields.read bytes

/-- Tag bytes that skipping leaves out of an optional field. -/
def omitted (inside : α → Nat) : Option α → Nat
  | none => 1
  | some value => inside value

def VideoInfo.omitted (video : VideoInfo) : Nat :=
  Metadata.omitted (fun _ => 0) video.profile + Metadata.omitted (fun _ => 0) video.crf

def FeatureSpec.omitted (spec : FeatureSpec) : Nat :=
  Metadata.omitted (fun _ => 0) spec.names + Metadata.omitted VideoInfo.omitted spec.videoInfo

theorem omitted_eq_zero_iff (inside : α → Nat) (value : Option α) :
    omitted inside value = 0 ↔ ∃ a, value = some a ∧ inside a = 0 := by
  cases value with
  | none => simp [omitted]
  | some a => simp [omitted]

/-- Nothing is left out of a full spec, and of no other. -/
theorem FeatureSpec.omitted_iff_full (spec : FeatureSpec) : spec.omitted = 0 ↔ spec.Full := by
  simp only [FeatureSpec.omitted, FeatureSpec.Full, VideoInfo.omitted, Nat.add_eq_zero_iff,
    omitted_eq_zero_iff, and_true, Option.isSome_iff_exists]

/-- What skipping leaves out is missing from the bytes of the full encoding. -/
theorem skipNone_omitted (codec : Codec α) (encode : α → Bytes) (inside : α → Nat)
    (short : ∀ a, (codec.encode a).length = (encode a).length + inside a) (value : Option α) :
    (codec.option.encode value).length =
      (skipNone encode value).length + Metadata.omitted inside value := by
  cases value with
  | none => rfl
  | some a =>
    change (codec.encode a).length + 1 = (encode a).length + 1 + inside a
    rw [short a]
    omega

theorem VideoInfo.serialize_omitted (video : VideoInfo) :
    (videoInfoFields.encode video).length = video.serialize.length + video.omitted := by
  have profile := skipNone_omitted text text.encode (fun _ => 0) (fun _ => rfl) video.profile
  have crf := skipNone_omitted u32 u32.encode (fun _ => 0) (fun _ => rfl) video.crf
  simp only [videoInfoFields, iso, pair, Equiv.coe_fn_symm_mk, VideoInfo.serialize, VideoInfo.omitted,
    List.length_append] at *
  omega

theorem FeatureSpec.serialize_omitted (spec : FeatureSpec) :
    (featureSpecFields.encode spec).length = spec.serialize.length + spec.omitted := by
  have names := skipNone_omitted (vec text) (vec text).encode (fun _ => 0) (fun _ => rfl) spec.names
  have video := skipNone_omitted videoInfoFields VideoInfo.serialize VideoInfo.omitted
    VideoInfo.serialize_omitted spec.videoInfo
  simp only [featureSpecFields, iso, pair, Equiv.coe_fn_symm_mk, FeatureSpec.serialize,
    FeatureSpec.omitted, List.length_append] at *
  omega

theorem skipNone_eq (codec : Codec α) {encode : α → Bytes} {value : Option α}
    (same : ∃ a, value = some a ∧ encode a = codec.encode a) :
    skipNone encode value = codec.option.encode value := by
  obtain ⟨a, rfl, same⟩ := same
  change 1 :: encode a = 1 :: codec.encode a
  rw [same]

/-- A full spec is encoded with all its fields. -/
theorem FeatureSpec.serialize_of_full {spec : FeatureSpec} (full : spec.Full) :
    spec.serialize = featureSpecFields.encode spec := by
  obtain ⟨names, video, described, profile, crf⟩ := full
  obtain ⟨name, named⟩ := Option.isSome_iff_exists.mp names
  obtain ⟨profileText, profiled⟩ := Option.isSome_iff_exists.mp profile
  obtain ⟨factor, rated⟩ := Option.isSome_iff_exists.mp crf
  have videoSame : video.serialize = videoInfoFields.encode video := by
    rw [VideoInfo.serialize, skipNone_eq text ⟨profileText, profiled, rfl⟩,
      skipNone_eq u32 ⟨factor, rated, rfl⟩]
    rfl
  rw [FeatureSpec.serialize, skipNone_eq (vec text) ⟨name, named, rfl⟩,
    skipNone_eq videoInfoFields ⟨video, described, videoSame⟩]
  rfl

/-- The round trip through the bytes succeeds for full specs and for no other. -/
theorem FeatureSpec.deserialize_serialize_iff (spec : FeatureSpec) :
    FeatureSpec.deserialize spec.serialize = .ok spec ↔ spec.Full := by
  constructor
  · intro back
    have fits := featureSpecFields.length_le_of_read back
    rw [spec.serialize_omitted] at fits
    exact spec.omitted_iff_full.mp (by omega)
  · intro full
    rw [FeatureSpec.serialize_of_full full]
    exact featureSpecFields.read_encode spec

/-! ### The registry -/

/-- `METADATA_PREFIX`. -/
def metadataPrefix : String := "/roboflow/v1/batch"

/-- `MetadataKeys::feature`. -/
def featureKey (batchId name : String) : Bytes :=
  utf8 (metadataPrefix ++ "/" ++ batchId ++ "/features/" ++ name)

/-- `MetadataKeys::feature_prefix`. -/
def featurePrefix (batchId : String) : Bytes := utf8 (metadataPrefix ++ "/" ++ batchId ++ "/features/")

inductive RegistryError where
  | deserialization (cause : DecodeError)
  | specMismatch (name : String) (existing new : FeatureSpec)
  deriving DecidableEq

def registerFeature (store : Kv Bytes Bytes) (batchId name : String) (spec : FeatureSpec) :
    Kv Bytes Bytes × Except RegistryError Unit :=
  match store.get (featureKey batchId name) with
  | some data =>
    match FeatureSpec.deserialize data with
    | .error cause => (store, .error (.deserialization cause))
    | .ok existing =>
      if existing.isCompatible spec then (store, .ok ())
      else (store, .error (.specMismatch name existing spec))
  | none => (store.put (featureKey batchId name) spec.serialize, .ok ())

def getFeature (store : Kv Bytes Bytes) (batchId name : String) :
    Except RegistryError (Option FeatureSpec) :=
  match store.get (featureKey batchId name) with
  | none => .ok none
  | some data =>
    match FeatureSpec.deserialize data with
    | .error cause => .error (.deserialization cause)
    | .ok spec => .ok (some spec)

/-- `rsplit('/').next()`: what follows the last slash. -/
def lastSegment (key : Bytes) : Bytes := (key.reverse.takeWhile (· ≠ 47)).reverse

/-- The loop of `scan_features` over the scanned pairs. -/
def collectFeatures (features : Kv Bytes FeatureSpec) :
    List (Bytes × Bytes) → Except RegistryError (Kv Bytes FeatureSpec)
  | [] => .ok features
  | (key, value) :: rest =>
    match FeatureSpec.deserialize value with
    | .error cause => .error (.deserialization cause)
    | .ok spec => collectFeatures (features.put (lastSegment key) spec) rest

def scanFeatures (store : Kv Bytes Bytes) (batchId : String) :
    Except RegistryError (Kv Bytes FeatureSpec) :=
  collectFeatures .empty (scan store (featurePrefix batchId) 1000)

/-- A spec registered under a name comes back from it, is among the scanned
features, and any compatible spec can be registered again. -/
def Persists (store : Kv Bytes Bytes) (batchId name : String) (spec : FeatureSpec) : Prop :=
  let registered := registerFeature store batchId name spec
  registered.2 = .ok () ∧
  getFeature registered.1 batchId name = .ok (some spec) ∧
  (∃ features, scanFeatures registered.1 batchId = .ok features ∧
    features.get (lastSegment (featureKey batchId name)) = some spec) ∧
  ∀ other, spec.isCompatible other = true → (registerFeature registered.1 batchId name other).2 = .ok ()

/-- The name is free, and the features already stored for the batch can be
scanned together with one more. -/
structure Vacant (store : Kv Bytes Bytes) (batchId name : String) : Prop where
  absent : store.get (featureKey batchId name) = none
  readable : ∀ key value, store.get key = some value → inScan (featurePrefix batchId) key = true →
    ∃ spec, FeatureSpec.deserialize value = .ok spec
  separate : ∀ key value, store.get key = some value → inScan (featurePrefix batchId) key = true →
    lastSegment key ≠ lastSegment (featureKey batchId name)
  room : (store.entries.filter fun entry => inScan (featurePrefix batchId) entry.1).length < 1000

/-- Readable entries are all collected, each under its last segment. -/
theorem collectFeatures_ok (entries : List (Bytes × Bytes)) (features : Kv Bytes FeatureSpec)
    (readable : ∀ entry ∈ entries, ∃ spec, FeatureSpec.deserialize entry.2 = .ok spec) :
    ∃ collected, collectFeatures features entries = .ok collected ∧
      ∀ label spec, (∀ entry ∈ entries, lastSegment entry.1 = label →
          FeatureSpec.deserialize entry.2 = .ok spec) →
        (features.get label = some spec ∨ ∃ entry ∈ entries, lastSegment entry.1 = label) →
        collected.get label = some spec := by
  induction entries generalizing features with
  | nil =>
    refine ⟨features, rfl, fun label spec _ found => ?_⟩
    simpa using found
  | cons entry rest ih =>
    obtain ⟨key, value⟩ := entry
    obtain ⟨first, decoded⟩ := readable (key, value) List.mem_cons_self
    obtain ⟨collected, done, gives⟩ := ih (features.put (lastSegment key) first)
      fun entry member => readable entry (List.mem_cons_of_mem _ member)
    refine ⟨collected, by simp only [collectFeatures, decoded, done], fun label spec alone found => ?_⟩
    refine gives label spec (fun entry member => alone entry (List.mem_cons_of_mem _ member)) ?_
    rw [Kv.get_put]
    by_cases here : label = lastSegment key
    · have same := alone (key, value) List.mem_cons_self here.symm
      rw [decoded] at same
      cases same
      exact Or.inl (if_pos here)
    · rw [if_neg here]
      refine found.imp_right fun ⟨entry, member, named⟩ => ?_
      rcases List.mem_cons.mp member with rfl | later
      · exact absurd named.symm here
      · exact ⟨entry, later, named⟩

theorem inScan_featureKey (batchId name : String) :
    inScan (featurePrefix batchId) (featureKey batchId name) = true := by
  rw [featureKey, inScan_utf8, featurePrefix, utf8_append _ name]
  exact List.prefix_append _ _

/-- With the name free, a registration writes the encoded spec. -/
theorem registerFeature_absent (absent : store.get (featureKey batchId name) = none) :
    registerFeature store batchId name spec =
      (store.put (featureKey batchId name) spec.serialize, .ok ()) := by
  simp only [registerFeature, absent]

theorem scanFeatures_full (vacant : Vacant store batchId name) (full : FeatureSpec.Full spec) :
    ∃ features, scanFeatures (store.put (featureKey batchId name) spec.serialize) batchId = .ok features ∧
      features.get (lastSegment (featureKey batchId name)) = some spec := by
  have room : ((store.put (featureKey batchId name) spec.serialize).entries.filter fun entry =>
      inScan (featurePrefix batchId) entry.1).length ≤ 1000 :=
    (store.length_filter_put _ _ _).trans vacant.room
  have back := spec.deserialize_serialize_iff.mpr full
  have entry_cases : ∀ entry ∈ scan (store.put (featureKey batchId name) spec.serialize)
      (featurePrefix batchId) 1000, FeatureSpec.deserialize entry.2 = .ok spec ∨
        ((∃ other, FeatureSpec.deserialize entry.2 = .ok other) ∧
          lastSegment entry.1 ≠ lastSegment (featureKey batchId name)) := by
    rintro ⟨key, value⟩ member
    obtain ⟨stored, inside⟩ := (Kv.mem_scan room).mp member
    rw [Kv.get_put] at stored
    split at stored
    · cases stored
      exact Or.inl back
    · exact Or.inr ⟨vacant.readable key value stored inside, vacant.separate key value stored inside⟩
  have written : (featureKey batchId name, spec.serialize) ∈
      scan (store.put (featureKey batchId name) spec.serialize) (featurePrefix batchId) 1000 :=
    (Kv.mem_scan room).mpr ⟨Kv.get_put_self _ _ _, inScan_featureKey batchId name⟩
  obtain ⟨features, collected, gives⟩ := collectFeatures_ok _ .empty fun entry member =>
    (entry_cases entry member).elim (fun own => ⟨spec, own⟩) (fun other => other.1)
  refine ⟨features, collected, gives _ spec (fun entry member named => ?_) (Or.inr ⟨_, written, rfl⟩)⟩
  exact (entry_cases entry member).resolve_right fun other => other.2 named

/-- From every store with the name free: a spec persists exactly when none of its
optional fields is `None`. -/
theorem feature_persists_iff (store : Kv Bytes Bytes) (batchId name : String) (spec : FeatureSpec)
    (vacant : Vacant store batchId name) : Persists store batchId name spec ↔ spec.Full := by
  have stored : (store.put (featureKey batchId name) spec.serialize).get (featureKey batchId name) =
      some spec.serialize := Kv.get_put_self _ _ _
  rw [Persists, registerFeature_absent vacant.absent]
  simp only [true_and]
  constructor
  · rintro ⟨got, -, -⟩
    rw [← spec.deserialize_serialize_iff]
    simp only [getFeature, stored] at got
    split at got
    · cases got
    · rename_i decoded
      cases got
      exact decoded
  · intro full
    have back := spec.deserialize_serialize_iff.mpr full
    refine ⟨?_, scanFeatures_full vacant full, fun other compatible => ?_⟩
    · simp only [getFeature, stored, back]
    · simp only [registerFeature, stored, back, compatible, if_true]

/-- A video feature with every field given. -/
def fullVideo : FeatureSpec where
  dtype := ⟨"video", by decide⟩
  shape := ⟨[480, 640, 3], by decide⟩
  names := some ⟨[⟨"height", by decide⟩, ⟨"width", by decide⟩, ⟨"channel", by decide⟩], by decide⟩
  videoInfo := some
    { codec := ⟨"libx264", by decide⟩
      fps := 30
      profile := some ⟨"high", by decide⟩
      crf := some 23 }

theorem feature_persists_full_video :
    Persists .empty "jobs:b" "observation.images.cam" fullVideo := by
  refine (feature_persists_iff .empty "jobs:b" "observation.images.cam" fullVideo ?_).mpr
    ⟨rfl, _, rfl, rfl, rfl⟩
  refine ⟨rfl, fun key value stored => ?_, fun key value stored => ?_, by decide⟩
  · rw [Kv.get_empty] at stored
    cases stored
  · rw [Kv.get_empty] at stored
    cases stored

/-- The spec of a plain state vector, as a worker reports it. -/
def stateVector : FeatureSpec :=
  FeatureShape.toSpec { dtype := ⟨"float32", by decide⟩, shape := ⟨[7], by decide⟩, isVideo := false }

/-- It is stored, and then neither read, scanned nor registered again. -/
theorem state_vector_unreadable :
    let registered := registerFeature .empty "jobs:b" "observation.state" stateVector
    registered.2 = .ok () ∧
    getFeature registered.1 "jobs:b" "observation.state" = .error (.deserialization .unexpectedEof) ∧
    scanFeatures registered.1 "jobs:b" = .error (.deserialization .unexpectedEof) ∧
    (registerFeature registered.1 "jobs:b" "observation.state" stateVector).2 =
      .error (.deserialization .unexpectedEof) ∧
    ¬Persists .empty "jobs:b" "observation.state" stateVector := by
  have unread : FeatureSpec.deserialize stateVector.serialize = .error .unexpectedEof := by rfl
  have stored : ((.empty : Kv Bytes Bytes).put (featureKey "jobs:b" "observation.state")
      stateVector.serialize).get (featureKey "jobs:b" "observation.state") =
      some stateVector.serialize := Kv.get_put_self _ _ _
  have scanned : scan ((.empty : Kv Bytes Bytes).put (featureKey "jobs:b" "observation.state")
      stateVector.serialize) (featurePrefix "jobs:b") 1000 =
      [(featureKey "jobs:b" "observation.state", stateVector.serialize)] := by
    have inside := inScan_featureKey "jobs:b" "observation.state"
    simp only [scan, Kv.scan, Kv.put, Kv.empty, Kv.insertEntry, List.filter_cons, inside, if_true,
      List.filter_nil, List.take_succ_cons, List.take_nil]
  have got : getFeature ((.empty : Kv Bytes Bytes).put (featureKey "jobs:b" "observation.state")
      stateVector.serialize) "jobs:b" "observation.state" = .error (.deserialization .unexpectedEof) := by
    simp only [getFeature, stored, unread]
  rw [registerFeature_absent (Kv.get_empty _)]
  refine ⟨rfl, got, ?_, ?_, ?_⟩
  · simp only [scanFeatures, scanned, collectFeatures, unread]
  · simp only [registerFeature, stored, unread]
  · rintro ⟨-, read, -, -⟩
    rw [registerFeature_absent (Kv.get_empty _), got] at read
    cases read

end Roboflow.Metadata
