import Roboflow.Pipeline.Executor

/-! What the executor finds in a decoded message, `message_utils.rs` and `process_message_for_frame`. An
array is converted element by element, and an element of a kind that the conversion does not list is left
out, so that an array of mixed kinds comes out shorter. -/
namespace Roboflow.Pipeline
open Library
open Roboflow.Alignment (AlignedFrame)

/-! ### Values -/

/-- `CodecValue`, with the kinds that are asked for. -/
inductive CodecValue where
  | int8 (n : Int8)
  | int16 (n : Int16)
  | int32 (n : Int32)
  | int64 (n : Int64)
  | uint8 (n : UInt8)
  | uint16 (n : UInt16)
  | uint32 (n : UInt32)
  | uint64 (n : UInt64)
  | float32 (x : Float32)
  | float64 (x : Float)
  | string (text : String)
  | bytes (data : List UInt8)
  | array (values : List CodecValue)
  | struct (fields : List (String × CodecValue))
  | other

namespace CodecValue

/-- `extract_u32`. -/
def extractU32 : CodecValue → Option Nat
  | uint32 n => some n.toNat
  | uint64 n => if n ≤ 4294967295 then some n.toNat else none
  | int32 n => if 0 ≤ n then some n.toInt.toNat else none
  | int64 n => if 0 ≤ n ∧ n ≤ 4294967295 then some n.toInt.toNat else none
  | _ => none

/-- The byte of an element of image data. -/
def imageByte : CodecValue → Option UInt8
  | uint8 b => some b
  | int8 b => if 0 ≤ b then some b.toUInt8 else none
  | uint16 b => if b ≤ 255 then some b.toUInt8 else none
  | int16 b => if 0 ≤ b ∧ b.toUInt16 ≤ 255 then some b.toUInt16.toUInt8 else none
  | uint32 b => if b ≤ 255 then some b.toUInt8 else none
  | int32 b => if 0 ≤ b ∧ b.toUInt32 ≤ 255 then some b.toUInt32.toUInt8 else none
  | uint64 b => if b ≤ 255 then some b.toUInt8 else none
  | int64 b => if 0 ≤ b ∧ b.toUInt64 ≤ 255 then some b.toUInt64.toUInt8 else none
  | _ => none

/-- The byte of an element of an array inside image data. -/
def nestedByte : CodecValue → Option UInt8
  | uint8 b => some b
  | int8 b => if 0 ≤ b then some b.toUInt8 else none
  | _ => none

/-- The bytes of an array inside image data, if there are any. -/
def nestedBytes : CodecValue → Option (List UInt8)
  | array inside =>
    let bytes := inside.filterMap nestedByte
    if bytes.isEmpty then none else some bytes
  | _ => none

/-- `extract_image_bytes`. -/
def extractImageBytes (fields : List (String × CodecValue)) : Option (List UInt8) :=
  match fields.lookup "data" with
  | some (bytes data) => some data
  | some (array values) =>
    let bytes := values.filterMap imageByte
    if bytes.isEmpty then values.findSome? nestedBytes else some bytes
  | _ => none

/-- The entry of a state or action vector for an element. -/
def stateEntry : CodecValue → Option Float32
  | float32 n => some n
  | float64 n => some n.toFloat32
  | int32 n => some n.toFloat32
  | int64 n => some n.toFloat32
  | uint32 n => some n.toFloat32
  | uint64 n => some n.toFloat32
  | _ => none

def asString : CodecValue → Option String
  | string text => some text
  | _ => none

/-- The numbers of an array, those that are listed. -/
def stateEntries : CodecValue → Option (List Float32)
  | array values => some (values.filterMap stateEntry)
  | _ => none

/-- What `process_message_for_frame` finds in a value. -/
def payload : CodecValue → Payload Float32
  | array values => .array (values.filterMap stateEntry)
  | struct fields =>
    .struct {
      hasK := (fields.lookup "K").isSome
      hasD := (fields.lookup "D").isSome
      format := (fields.lookup "format").bind asString
      data := extractImageBytes fields
      width := (fields.lookup "width").bind extractU32
      height := (fields.lookup "height").bind extractU32
      position := (fields.lookup "position").bind stateEntries }
  | _ => .other

end CodecValue

/-- A message as the codec delivers it. -/
structure CodecMessage where
  topic : String
  logTime : Nat
  data : CodecValue

def CodecMessage.decoded (msg : CodecMessage) : TimestampedMessage Float32 :=
  ⟨msg.topic, msg.logTime, msg.data.payload⟩

/-! ### What is promised -/

namespace CodecValue

/-- The number that an element is, of whatever kind. -/
def number : CodecValue → Option Float32
  | int8 n => some n.toFloat32
  | int16 n => some n.toFloat32
  | int32 n => some n.toFloat32
  | int64 n => some n.toFloat32
  | uint8 n => some n.toFloat32
  | uint16 n => some n.toFloat32
  | uint32 n => some n.toFloat32
  | uint64 n => some n.toFloat32
  | float32 x => some x
  | float64 x => some x.toFloat32
  | _ => none

/-- The byte that an 8-bit element is, a negative one in two's complement. -/
def byte : CodecValue → Option UInt8
  | int8 n => some n.toUInt8
  | uint8 n => some n
  | _ => none

/-- The array that a message's vector is made from: its own, or that of its positions. -/
def vectorArray : CodecValue → Option (List CodecValue)
  | array values => some values
  | struct fields =>
    match fields.lookup "position" with
    | some (array values) => some values
    | _ => none
  | _ => none

/-- A kind that vectors are made from: not an integer of 8 or 16 bits. -/
def isWide : CodecValue → Bool
  | int32 _ | int64 _ | uint32 _ | uint64 _ | float32 _ | float64 _ => true
  | _ => false

def isNegative : CodecValue → Bool
  | int8 n => n < 0
  | _ => false

end CodecValue

/-- The vector that is stored, for the state or for the action. -/
def Contribution.vector {Value : Type} : Contribution Value → Option (List Value)
  | .state values => some values
  | .action values => some values
  | .image _ => none

/-- A message stores nothing in the frame's vectors, or one vector with the number of every element. -/
def StoresWhole (config : DatasetPipelineConfig) (msg : CodecMessage) (values : List CodecValue) : Prop :=
  ∀ frame frame', processMessageForFrame config frame msg.decoded = .ok frame' →
    frame'.states = frame.states ∧ frame'.actions = frame.actions ∨
      ∃ feature data vector, data.vector = some vector ∧ vector.map some = values.map CodecValue.number ∧
        frame' = addContribution frame feature data

/-- Image data of 8-bit elements is not extracted, or one byte for every element is. -/
def ExtractsWhole (fields : List (String × CodecValue)) (values : List CodecValue) : Prop :=
  ∀ bytes, CodecValue.extractImageBytes fields = some bytes → bytes.map some = values.map CodecValue.byte

/-- Either every element has the property or none does. -/
def Uniform (p : CodecValue → Bool) (values : List CodecValue) : Prop :=
  (∀ value ∈ values, p value = true) ∨ ∀ value ∈ values, p value = false

/-- Image data has bytes: it is given as bytes, or an element of the array has one, or one of an array
inside does. -/
def HasImageBytes (fields : List (String × CodecValue)) : Prop :=
  match fields.lookup "data" with
  | some (.bytes _) => True
  | some (.array values) => (∃ value ∈ values, value.imageByte ≠ none) ∨
      ∃ inside, .array inside ∈ values ∧ ∃ value ∈ inside, value.nestedByte ≠ none
  | _ => False

/-- A struct is read as camera information, or as an image. -/
def ReadOtherwise (fields : List (String × CodecValue)) : Prop :=
  (fields.lookup "K").isSome ∧ (fields.lookup "D").isSome ∨
    HasImageBytes fields ∧ ((fields.lookup "format").bind CodecValue.asString ≠ none ∨
      (fields.lookup "width").bind CodecValue.extractU32 ≠ none ∧
        (fields.lookup "height").bind CodecValue.extractU32 ≠ none)

/-- A message is read as a vector. -/
def ReadAsVector (config : DatasetPipelineConfig) (msg : CodecMessage) : Prop :=
  config.featureName msg.topic ≠ none ∧ ∀ fields, msg.data = .struct fields → ¬ReadOtherwise fields

/-! ### Converting element by element -/

section
variable {α β : Type} {f g : α → Option β} {values : List α}

/-- Elements that are left out make a list shorter, so that it is whole exactly if none is. -/
theorem filterMap_whole_iff (agrees : ∀ x ∈ values, f x ≠ none → f x = g x) :
    (values.filterMap f).map some = values.map g ↔ ∀ x ∈ values, f x ≠ none := by
  constructor
  · intro whole x member nothing
    have count := congrArg List.length whole
    rw [List.length_map, List.length_map, List.length_filterMap_eq_countP] at count
    have all := List.countP_eq_length.mp count x member
    rw [nothing] at all
    cases all
  · intro all
    induction values with
    | nil => rfl
    | cons x values ih =>
      obtain ⟨y, found⟩ := Option.ne_none_iff_exists'.mp (all x List.mem_cons_self)
      have same := agrees x List.mem_cons_self (all x List.mem_cons_self)
      rw [List.filterMap_cons_some found, List.map_cons, List.map_cons, ← same, found]
      rw [ih (fun z member => agrees z (List.mem_cons_of_mem _ member))
        (fun z member => all z (List.mem_cons_of_mem _ member))]

end

namespace CodecValue

theorem stateEntry_number {value : CodecValue} (listed : value.stateEntry ≠ none) :
    value.stateEntry = value.number := by
  cases value with
  | float32 | float64 | int32 | int64 | uint32 | uint64 => rfl
  | int8 | int16 | uint8 | uint16 | string | bytes | array | struct | other => exact absurd rfl listed

theorem stateEntry_eq_none_iff {value : CodecValue} : value.stateEntry = none ↔ value.isWide = false := by
  cases value with
  | float32 | float64 | int32 | int64 | uint32 | uint64 => simp [stateEntry, isWide]
  | int8 | int16 | uint8 | uint16 | string | bytes | array | struct | other => simp [stateEntry, isWide]

/-- An 8-bit element has a byte in an image exactly if it is not negative. -/
theorem imageByte_of_byte {value : CodecValue} (narrow : value.byte ≠ none) :
    value.imageByte = if value.isNegative then none else value.byte := by
  cases value with
  | uint8 n => rfl
  | int8 n =>
    by_cases negative : n < 0
    · simp [imageByte, isNegative, negative, Int8.not_le.mpr negative]
    · simp [imageByte, isNegative, byte, negative, Int8.not_lt.mp negative]
  | int16 | int32 | int64 | uint16 | uint32 | uint64 | float32 | float64 | string | bytes | array | struct
    | other => exact absurd rfl narrow

theorem nestedBytes_eq_none_iff {value : CodecValue} :
    value.nestedBytes = none ↔ ∀ inside, value = array inside → ∀ x ∈ inside, x.nestedByte = none := by
  cases value with
  | array inside =>
    unfold nestedBytes
    by_cases nothing : inside.filterMap nestedByte = []
    · simpa [nothing] using List.filterMap_eq_nil_iff.mp nothing
    · simp only [List.isEmpty_iff, nothing, if_false, reduceCtorEq, false_iff]
      intro all
      exact nothing (List.filterMap_eq_nil_iff.mpr (all inside rfl))
  | int8 | int16 | int32 | int64 | uint8 | uint16 | uint32 | uint64 | float32 | float64 | string | bytes
    | struct | other => simp [nestedBytes]

theorem extractImageBytes_eq_none_iff {fields : List (String × CodecValue)} :
    extractImageBytes fields = none ↔ ¬HasImageBytes fields := by
  unfold extractImageBytes HasImageBytes
  cases found : fields.lookup "data" with
  | none => simp
  | some data =>
    cases data with
    | bytes data => simp
    | array values =>
      dsimp only
      by_cases nothing : values.filterMap imageByte = []
      · have none_ := List.filterMap_eq_nil_iff.mp nothing
        simp only [List.isEmpty_iff, nothing, if_true, List.findSome?_eq_none_iff, nestedBytes_eq_none_iff]
        constructor
        · rintro all (⟨value, member, some_⟩ | ⟨inside, member, x, within, some_⟩)
          · exact some_ (none_ value member)
          · exact some_ (all _ member inside rfl x within)
        · intro nowhere value member inside same x within
          by_contra some_
          subst same
          exact nowhere (.inr ⟨inside, member, x, within, some_⟩)
      · simp only [List.isEmpty_iff, nothing, if_false, reduceCtorEq, false_iff, not_not]
        left
        by_contra nowhere
        apply nothing
        rw [List.filterMap_eq_nil_iff]
        intro value member
        by_contra some_
        exact nowhere ⟨value, member, some_⟩
    | int8 | int16 | int32 | int64 | uint8 | uint16 | uint32 | uint64 | float32 | float64 | string
      | struct | other => simp

end CodecValue

/-! ### Which messages are read as vectors -/

section
variable {config : DatasetPipelineConfig} {feature : String} {Value : Type}

/-- Camera information gives nothing, and an image is no vector. -/
theorem structContribution_otherwise {fields : StructFields Value} {data : Contribution Value}
    (otherwise : fields.hasK = true ∧ fields.hasD = true ∨
      fields.data ≠ none ∧ (fields.format ≠ none ∨ fields.width ≠ none ∧ fields.height ≠ none))
    (given : structContribution config feature fields = .ok (some data)) : ∃ image, data = .image image := by
  unfold structContribution at given
  by_cases info : (fields.hasK && fields.hasD) = true
  · rw [if_pos info] at given
    cases given
  · rw [if_neg info] at given
    have ⟨bytes, asked⟩ := otherwise.resolve_left (by simpa using info)
    obtain ⟨found, bytes⟩ := Option.ne_none_iff_exists'.mp bytes
    rw [bytes] at given
    cases format : fields.format with
    | some text =>
      rw [format] at given
      cases given
      exact ⟨_, rfl⟩
    | none =>
      obtain ⟨width, height⟩ := asked.resolve_left (absurd format)
      obtain ⟨w, width⟩ := Option.ne_none_iff_exists'.mp width
      obtain ⟨h, height⟩ := Option.ne_none_iff_exists'.mp height
      rw [format, width, height] at given
      dsimp only at given
      split at given
      · cases given
        exact ⟨_, rfl⟩
      · split at given
        · cases given
          exact ⟨_, rfl⟩
        · cases given

theorem structContribution_vector {fields : StructFields Value}
    (plain : ¬(fields.hasK = true ∧ fields.hasD = true ∨
      fields.data ≠ none ∧ (fields.format ≠ none ∨ fields.width ≠ none ∧ fields.height ≠ none))) :
    structContribution config feature fields = .ok (fields.position.bind (numericContribution feature)) := by
  obtain ⟨info, image⟩ := not_or.mp plain
  have reads : (fields.position.elim (.ok none) fun numbers => .ok (numericContribution feature numbers) :
      Except String (Option (Contribution Value))) =
        .ok (fields.position.bind (numericContribution feature)) := by
    cases fields.position with
    | none => rfl
    | some numbers => rfl
  rw [← reads]
  unfold structContribution
  rw [if_neg (by simpa using info)]
  cases data : fields.data with
  | none =>
    cases fields.format with
    | none =>
      cases fields.width with
      | none => cases fields.position <;> rfl
      | some width => cases fields.height <;> cases fields.position <;> rfl
    | some text =>
      cases fields.width with
      | none => cases fields.position <;> rfl
      | some width => cases fields.height <;> cases fields.position <;> rfl
  | some bytes =>
    have asked : ¬(fields.format ≠ none ∨ fields.width ≠ none ∧ fields.height ≠ none) := fun asked =>
      image ⟨by simp [data], asked⟩
    obtain ⟨format, size⟩ := not_or.mp asked
    rw [not_not.mp format]
    cases width : fields.width with
    | none => cases fields.position <;> rfl
    | some w =>
      cases height : fields.height with
      | none => cases fields.position <;> rfl
      | some h => exact absurd ⟨by simp [width], by simp [height]⟩ size

end

section
variable {config : DatasetPipelineConfig} {msg : CodecMessage} {values : List CodecValue}

/-- The tests of a decoded struct, as tests of its fields. -/
theorem readOtherwise_iff (fields : List (String × CodecValue)) : ReadOtherwise fields ↔
    (fields.lookup "K").isSome = true ∧ (fields.lookup "D").isSome = true ∨
      CodecValue.extractImageBytes fields ≠ none ∧
        ((fields.lookup "format").bind CodecValue.asString ≠ none ∨
          (fields.lookup "width").bind CodecValue.extractU32 ≠ none ∧
            (fields.lookup "height").bind CodecValue.extractU32 ≠ none) := by
  have bytes : CodecValue.extractImageBytes fields ≠ none ↔ HasImageBytes fields :=
    CodecValue.extractImageBytes_eq_none_iff.not.trans not_not
  rw [bytes, ReadOtherwise]

theorem contribution_vector (reads : ReadAsVector config msg)
    (given : msg.data.vectorArray = some values) :
    ∃ feature, contribution config msg.decoded =
      .ok ((numericContribution feature (values.filterMap CodecValue.stateEntry)).map (feature, ·)) := by
  obtain ⟨named, plain⟩ := reads
  obtain ⟨feature, found⟩ := Option.ne_none_iff_exists'.mp named
  refine ⟨feature, ?_⟩
  unfold contribution CodecMessage.decoded
  dsimp only
  rw [found]
  cases data : msg.data with
  | array inside =>
    rw [data] at given
    obtain rfl := Option.some.inj given
    rfl
  | struct fields =>
    have plain := plain fields data
    rw [readOtherwise_iff] at plain
    rw [data] at given
    have position : (fields.lookup "position").bind CodecValue.stateEntries =
        some (values.filterMap CodecValue.stateEntry) := by
      unfold CodecValue.vectorArray at given
      dsimp only at given
      split at given
      · rename_i inside held
        obtain rfl := Option.some.inj given
        rw [held]
        rfl
      · cases given
    unfold CodecValue.payload
    dsimp only
    rw [structContribution_vector plain]
    dsimp only
    rw [position]
    rfl
  | int8 | int16 | int32 | int64 | uint8 | uint16 | uint32 | uint64 | float32 | float64 | string | bytes
    | other =>
    rw [data] at given
    cases given

theorem contribution_otherwise {feature : String} {added : Contribution Float32}
    (otherwise : ¬ReadAsVector config msg) (given : msg.data.vectorArray = some values)
    (contributed : contribution config msg.decoded = .ok (some (feature, added))) :
    ∃ image, added = .image image := by
  unfold contribution CodecMessage.decoded at contributed
  dsimp only at contributed
  cases found : config.featureName msg.topic with
  | none =>
    rw [found] at contributed
    cases contributed
  | some name =>
    rw [found] at contributed
    cases data : msg.data with
    | struct fields =>
      have read : ReadOtherwise fields := by
        by_contra plain
        apply otherwise
        refine ⟨by simp [found], ?_⟩
        intro fields' same
        obtain rfl := CodecValue.struct.inj (data.symm.trans same)
        exact plain
      rw [data] at contributed
      unfold CodecValue.payload at contributed
      dsimp only at contributed
      rw [readOtherwise_iff] at read
      generalize decoded : StructFields.mk _ _ _ _ _ _ _ = inner at contributed
      cases result : structContribution config name inner with
      | error e =>
        rw [result] at contributed
        cases contributed
      | ok found =>
        rw [result] at contributed
        cases found with
        | none => cases contributed
        | some data =>
          cases contributed
          refine structContribution_otherwise ?_ result
          rw [← decoded]
          exact read
    | array inside =>
      apply absurd _ otherwise
      refine ⟨by simp [found], ?_⟩
      intro fields same
      cases data.symm.trans same
    | int8 | int16 | int32 | int64 | uint8 | uint16 | uint32 | uint64 | float32 | float64 | string | bytes
      | other =>
      rw [data] at given
      cases given

theorem processMessageForFrame_some {Value : Type} {frame : AlignedFrame Value}
    {msg : TimestampedMessage Value} {feature : String} {data : Contribution Value}
    (contributed : contribution config msg = .ok (some (feature, data))) :
    processMessageForFrame config frame msg = .ok (addContribution frame feature data) := by
  unfold processMessageForFrame
  rw [contributed]
  rfl

theorem processMessageForFrame_none {Value : Type} {frame : AlignedFrame Value}
    {msg : TimestampedMessage Value} (contributed : contribution config msg = .ok none) :
    processMessageForFrame config frame msg = .ok frame := by
  unfold processMessageForFrame
  rw [contributed]
  rfl

theorem numericContribution_vector {Value : Type} (feature : String) {numbers : List Value}
    (some_ : numbers ≠ []) :
    ∃ data, numericContribution feature numbers = some data ∧ data.vector = some numbers := by
  unfold numericContribution
  rw [if_neg (by simpa using some_)]
  split
  · exact ⟨_, rfl, rfl⟩
  · exact ⟨_, rfl, rfl⟩

/-- An empty frame shows what was added to it. -/
theorem vector_of_added {Value : Type} {feature feature' : String} {data data' : Contribution Value}
    {vector vector' : List Value} (holds : data.vector = some vector) (holds' : data'.vector = some vector')
    (same : addContribution (.new 0 0) feature data = addContribution (.new 0 0) feature' data') :
    vector = vector' := by
  have states := congrArg (fun frame => frame.states.entries) same
  have actions := congrArg (fun frame => frame.actions.entries) same
  cases data with
  | image image => cases holds
  | state values =>
    cases data' with
    | image image => cases holds'
    | state values' =>
      obtain rfl := Option.some.inj holds
      obtain rfl := Option.some.inj holds'
      exact (Prod.ext_iff.mp (List.singleton_inj.mp states)).2
    | action values' => cases states
  | action values =>
    cases data' with
    | image image => cases holds'
    | state values' => cases states
    | action values' =>
      obtain rfl := Option.some.inj holds
      obtain rfl := Option.some.inj holds'
      exact (Prod.ext_iff.mp (List.singleton_inj.mp actions)).2

theorem added_differs {Value : Type} {feature : String} {data : Contribution Value} {vector : List Value}
    (holds : data.vector = some vector) :
    ¬((addContribution (.new 0 0) feature data).states = (AlignedFrame.new 0 0 : AlignedFrame Value).states ∧
      (addContribution (.new 0 0) feature data).actions =
        (AlignedFrame.new 0 0 : AlignedFrame Value).actions) := by
  rintro ⟨states, actions⟩
  cases data with
  | image image => cases holds
  | state values => cases congrArg Kv.entries states
  | action values => cases congrArg Kv.entries actions

/-- A vector is stored whole exactly if every element is of a listed kind or none is. -/
theorem storesWhole_iff (given : msg.data.vectorArray = some values) :
    StoresWhole config msg values ↔ (ReadAsVector config msg → Uniform CodecValue.isWide values) := by
  have wide (value : CodecValue) : value.stateEntry ≠ none ↔ value.isWide = true := by
    rw [Ne, CodecValue.stateEntry_eq_none_iff, Bool.not_eq_false]
  have whole : (values.filterMap CodecValue.stateEntry).map some = values.map CodecValue.number ↔
      ∀ value ∈ values, value.stateEntry ≠ none :=
    filterMap_whole_iff fun value _ listed => CodecValue.stateEntry_number listed
  constructor
  · intro stores reads
    obtain ⟨feature, contributed⟩ := contribution_vector reads given
    by_cases nothing : values.filterMap CodecValue.stateEntry = []
    · right
      intro value member
      apply CodecValue.stateEntry_eq_none_iff.mp
      exact List.filterMap_eq_nil_iff.mp nothing value member
    · left
      obtain ⟨data, numeric, holds⟩ := numericContribution_vector feature nothing
      rw [numeric, Option.map_some] at contributed
      rcases stores (.new 0 0) _ (processMessageForFrame_some contributed) with same | added
      · exact absurd same (added_differs holds)
      · obtain ⟨_, _, vector, holds', numbers, same⟩ := added
        obtain rfl := vector_of_added holds holds' same
        intro value member
        rw [← wide]
        exact whole.mp numbers value member
  · intro uniform frame frame' processed
    by_cases reads : ReadAsVector config msg
    · obtain ⟨feature, contributed⟩ := contribution_vector reads given
      by_cases nothing : values.filterMap CodecValue.stateEntry = []
      · left
        rw [nothing] at contributed
        rw [processMessageForFrame_none contributed] at processed
        obtain rfl := Except.ok.inj processed
        exact ⟨rfl, rfl⟩
      · right
        obtain ⟨data, numeric, holds⟩ := numericContribution_vector feature nothing
        rw [numeric, Option.map_some] at contributed
        rw [processMessageForFrame_some contributed] at processed
        obtain rfl := Except.ok.inj processed
        refine ⟨feature, data, _, holds, ?_, rfl⟩
        rw [whole]
        rcases uniform reads with all | none_
        · exact fun value member => (wide value).mpr (all value member)
        · refine absurd ?_ nothing
          rw [List.filterMap_eq_nil_iff]
          exact fun value member => CodecValue.stateEntry_eq_none_iff.mpr (none_ value member)
    · left
      cases contributed : contribution config msg.decoded with
      | error e =>
        unfold processMessageForFrame at processed
        rw [contributed] at processed
        cases processed
      | ok result =>
        cases result with
        | none =>
          rw [processMessageForFrame_none contributed] at processed
          obtain rfl := Except.ok.inj processed
          exact ⟨rfl, rfl⟩
        | some found =>
          obtain ⟨feature, data⟩ := found
          obtain ⟨image, rfl⟩ := contribution_otherwise reads given contributed
          rw [processMessageForFrame_some contributed] at processed
          obtain rfl := Except.ok.inj processed
          exact ⟨rfl, rfl⟩

end

/-! ### Images -/

/-- Image data of 8-bit elements comes out whole exactly if no element is negative or every one is. -/
theorem extractsWhole_iff {fields : List (String × CodecValue)} {values : List CodecValue}
    (given : fields.lookup "data" = some (.array values)) (narrow : ∀ value ∈ values, value.byte ≠ none) :
    ExtractsWhole fields values ↔ Uniform CodecValue.isNegative values := by
  have left_out {value : CodecValue} (member : value ∈ values) :
      value.imageByte = none ↔ value.isNegative = true := by
    rw [CodecValue.imageByte_of_byte (narrow value member)]
    split
    · rename_i negative
      exact iff_of_true rfl negative
    · rename_i nonneg
      exact iff_of_false (narrow value member) nonneg
  have whole : (values.filterMap CodecValue.imageByte).map some = values.map CodecValue.byte ↔
      ∀ value ∈ values, value.imageByte ≠ none := by
    apply filterMap_whole_iff
    intro value member some_
    have nonneg : ¬value.isNegative = true := fun negative => some_ ((left_out member).mpr negative)
    rw [CodecValue.imageByte_of_byte (narrow value member), if_neg nonneg]
  have nested : values.findSome? CodecValue.nestedBytes = none := by
    rw [List.findSome?_eq_none_iff]
    intro value member
    rw [CodecValue.nestedBytes_eq_none_iff]
    rintro inside rfl
    exact absurd rfl (narrow _ member)
  unfold ExtractsWhole CodecValue.extractImageBytes
  rw [given]
  dsimp only
  rw [nested]
  by_cases nothing : values.filterMap CodecValue.imageByte = []
  · have negative : ∀ value ∈ values, value.isNegative = true := fun value member =>
      (left_out member).mp (List.filterMap_eq_nil_iff.mp nothing value member)
    rw [nothing]
    refine iff_of_true ?_ (.inl negative)
    intro bytes extracted
    cases extracted
  · rw [if_neg (by simpa using nothing)]
    constructor
    · intro all
      right
      intro value member
      rw [Bool.eq_false_iff, Ne, ← left_out member]
      exact whole.mp (all _ rfl) value member
    · rintro (negative | nonneg) bytes extracted
      · refine absurd ?_ nothing
        rw [List.filterMap_eq_nil_iff]
        exact fun value member => (left_out member).mpr (negative value member)
      · obtain rfl := Option.some.inj extracted
        rw [whole]
        intro value member
        rw [Ne, left_out member, nonneg value member]
        exact Bool.false_ne_true

/-- The vectors of messages and the bytes of images are whole exactly if the conversion lists every element
or none: integers of 8 and 16 bits are left out of vectors, negative ones of 8 bits out of images. -/
theorem message_arrays_whole_iff (config : DatasetPipelineConfig) {msg : CodecMessage}
    {values data : List CodecValue} {fields : List (String × CodecValue)}
    (vector : msg.data.vectorArray = some values) (image : fields.lookup "data" = some (.array data))
    (narrow : ∀ value ∈ data, value.byte ≠ none) :
    (StoresWhole config msg values ↔ (ReadAsVector config msg → Uniform CodecValue.isWide values)) ∧
      (ExtractsWhole fields data ↔ Uniform CodecValue.isNegative data) :=
  ⟨storesWhole_iff vector, extractsWhole_iff image narrow⟩

/-- Every topic is a feature of its own name. -/
def everyTopic : DatasetPipelineConfig := ⟨0, 0, none, .single, .empty, fun _ => (0, 0)⟩

theorem readAsVector_array (topic : String) (values : List CodecValue) :
    ReadAsVector everyTopic ⟨topic, 0, .array values⟩ := by
  refine ⟨Option.some_ne_none _, ?_⟩
  intro fields same
  cases same

/-- Integers of 32 bits are stored, and bytes extracted. -/
theorem listed_kinds_whole : StoresWhole everyTopic ⟨"joints", 0, .array [.int32 1, .uint64 2]⟩
      [.int32 1, .uint64 2] ∧
    ExtractsWhole [("data", .array [.uint8 200, .int8 5])] [.uint8 200, .int8 5] := by
  have both : (StoresWhole everyTopic ⟨"joints", 0, .array [.int32 1, .uint64 2]⟩ _ ↔ _) ∧
      (ExtractsWhole [("data", .array [.uint8 200, .int8 5])] _ ↔ _) :=
    message_arrays_whole_iff everyTopic rfl rfl (by simp [CodecValue.byte])
  refine ⟨both.1.mpr fun _ => .inl ?_, both.2.mpr (.inr ?_)⟩
  · simp [CodecValue.isWide]
  · simp [CodecValue.isNegative]

/-- A byte in a vector is left out, and a negative one in an image. -/
theorem left_out_elements :
    (¬∀ msg values, msg.data.vectorArray = some values → (∀ value ∈ values, value.number ≠ none) →
        StoresWhole everyTopic msg values) ∧
      ¬∀ fields values, fields.lookup "data" = some (.array values) →
        (∀ value ∈ values, value.byte ≠ none) → ExtractsWhole fields values := by
  constructor
  · intro all
    have stores := all ⟨"joints", 0, .array [.uint8 7, .int32 5]⟩ _ rfl (by simp [CodecValue.number])
    have uniform := (storesWhole_iff rfl).mp stores (readAsVector_array "joints" [.uint8 7, .int32 5])
    simp [Uniform, CodecValue.isWide] at uniform
  · intro all
    have extracts := all [("data", .array [.int8 (-1), .uint8 5])] _ rfl (by simp [CodecValue.byte])
    have uniform := (extractsWhole_iff rfl (by simp [CodecValue.byte])).mp extracts
    simp [Uniform, CodecValue.isNegative] at uniform

end Roboflow.Pipeline
