import Roboflow.Library.Interning
import Roboflow.Lerobot.VideoBuffers

/-! The columns of an episode's parquet file, `write_episode_parquet_with_chunk`, and the
dimensions `add_frame` records for `info.json`. The columns are read off the same filled
rows as `episodeRows`. -/
namespace Roboflow.Lerobot
open Library

/-! ### The columns -/

/-- What a column is of. -/
inductive ColumnKey where
  | episodeIndex
  | frameIndex
  | index
  | timestamp
  | observationState (dimension : Nat)
  | action (dimension : Nat)
  | taskIndex
  | imagePath (camera : String)
  | imageTimestamp (camera : String)

def ColumnKey.name : ColumnKey → String
  | .episodeIndex => "episode_index"
  | .frameIndex => "frame_index"
  | .index => "index"
  | .timestamp => "timestamp"
  | .observationState dimension => "observation.state." ++ padded 0 dimension
  | .action dimension => "action." ++ padded 0 dimension
  | .taskIndex => "task_index"
  | .imagePath camera => camera ++ "_path"
  | .imageTimestamp camera => camera ++ "_timestamp"

inductive ColumnValues (Value : Type) where
  | int64 (values : List Nat)
  | float64 (values : List Nat)
  | float32 (values : List Value)
  | text (values : List String)

def ColumnValues.length {Value : Type} : ColumnValues Value → Nat
  | .int64 values => values.length
  | .float64 values => values.length
  | .float32 values => values.length
  | .text values => values.length

structure Series (Value : Type) where
  name : String
  values : ColumnValues Value

variable {Value : Type}

/-- The image reference of a camera in a frame, by default where the episode's chunk has it. -/
def imageReference (episodeIndex chunk : Nat) (camera : String) (frame : LerobotFrame Value) :
    String × Nat :=
  (frame.imageFrames.get camera).getD (videoPath chunk camera episodeIndex, frame.timestamp)

/-- The columns for the rows of one episode. -/
def seriesOf [Zero Value] (frameData : List (LerobotFrame Value)) (episodeIndex chunk stateDim : Nat) :
    List (ColumnKey × ColumnValues Value) :=
  let rows := fillRows (cameras frameData) episodeIndex chunk stateDim none none frameData
  [(ColumnKey.episodeIndex, ColumnValues.int64 (rows.map (·.episodeIndex))),
    (ColumnKey.frameIndex, ColumnValues.int64 (rows.map (·.frameIndex))),
    (ColumnKey.index, ColumnValues.int64 (rows.map (·.index))),
    (ColumnKey.timestamp, ColumnValues.float64 (rows.map (·.timestamp)))] ++
  (List.range stateDim).map (fun i =>
    (ColumnKey.observationState i,
      ColumnValues.float32 (rows.map fun row => row.observationState[i]?.getD 0))) ++
  (List.range (actionDim rows)).map (fun i =>
    (ColumnKey.action i, ColumnValues.float32 (rows.map fun row => row.action[i]?.getD 0))) ++
  [(ColumnKey.taskIndex, ColumnValues.int64 (rows.map (·.taskIndex)))] ++
  (cameras frameData).flatMap fun camera =>
    [(ColumnKey.imagePath camera, ColumnValues.text (frameData.map fun frame =>
        (imageReference episodeIndex chunk camera frame).1)),
      (ColumnKey.imageTimestamp camera, ColumnValues.float64 (frameData.map fun frame =>
        (imageReference episodeIndex chunk camera frame).2))]

/-- `write_episode_parquet_with_chunk`: the series of the data frame. -/
def episodeColumns [Zero Value] (frameData : List (LerobotFrame Value)) (episodeIndex chunk : Nat) :
    Except String (List (Series Value)) :=
  match frameData.findSome? (·.observationState) with
  | none => .error "Cannot determine state dimension: no frame has observation_state"
  | some state => .ok ((seriesOf frameData episodeIndex chunk state.length).map fun column =>
      ⟨column.1.name, column.2⟩)

/-! ### The dimensions for `info.json` -/

/-- What `add_frame` does to the metadata's `state_dims`. -/
def recordDims (stateDims : Kv String Nat) (frame : LerobotFrame Value) : Kv String Nat :=
  let stateDims := frame.observationState.elim stateDims fun state =>
    stateDims.put "observation.state" state.length
  frame.action.elim stateDims fun action => stateDims.put "action" action.length

/-- The shape `write_info_json` gives a feature, if it lists it. -/
def infoShape (stateDims : Kv String Nat) (feature : String) : Option (List Nat) :=
  (stateDims.get feature).map fun dim => [dim]

/-! ### What the columns are to hold -/

/-- A frame's own value, else the nearest earlier frame's. -/
def carried (values : List (Option (List Value))) (i : Nat) : Option (List Value) :=
  (values.take (i + 1)).reverse.findSome? id

/-- Component `j` of what is carried to each of the frames, or zero. -/
def carriedColumn [Zero Value] (values : List (Option (List Value))) (j : Nat) : List Value :=
  (List.range values.length).map fun i => ((carried values i).getD [])[j]?.getD 0

/-- The values of the column of a name. -/
def columnOf (columns : List (Series Value)) (key : ColumnKey) : Option (ColumnValues Value) :=
  (columns.find? fun column => column.name = key.name).map (·.values)

/-- Every value of the frames is in its column, and there are as many columns as the
recorded shapes say. -/
structure CarriesEveryValue [Zero Value] (frameData : List (LerobotFrame Value)) (s d : Nat)
    (columns : List (Series Value)) (stateDims : Kv String Nat) : Prop where
  distinct : (columns.map (·.name)).Nodup
  lengths : ∀ column ∈ columns, column.values.length = frameData.length
  states : ∀ j, columnOf columns (.observationState j) = if j < s then
    some (.float32 (carriedColumn (frameData.map (·.observationState)) j)) else none
  actions : ∀ j, columnOf columns (.action j) = if j < d then
    some (.float32 (carriedColumn (frameData.map (·.action)) j)) else none
  stateShape : infoShape (frameData.foldl recordDims stateDims) "observation.state" = some [s]
  actionShape : infoShape (frameData.foldl recordDims stateDims) "action" = some [d]

/-- Frames of one episode: the states have one length, the actions another, and there is
at least one of each. -/
structure Shaped (frameData : List (LerobotFrame Value)) (s d : Nat) : Prop where
  states : ∀ frame ∈ frameData, ∀ state, frame.observationState = some state → state.length = s
  actions : ∀ frame ∈ frameData, ∀ action, frame.action = some action → action.length = d
  someState : ∃ frame ∈ frameData, frame.observationState ≠ none
  someAction : ∃ frame ∈ frameData, frame.action ≠ none
  positive : 1 ≤ d

/-! ### Column names -/

theorem digits_ne_nil (n : Nat) : (padded 0 n).toList ≠ [] := by
  simp [padded, List.leftpad, Nat.toDigits_ne_nil]

/-- The letter a column's name ends with, if it is not a digit. -/
def ColumnKey.ending : ColumnKey → Option Char
  | .observationState _ | .action _ => none
  | .imagePath _ => some 'h'
  | .timestamp | .imageTimestamp _ => some 'p'
  | .episodeIndex | .frameIndex | .index | .taskIndex => some 'x'

theorem ending_digits (start : String) (n : Nat) :
    (start ++ padded 0 n).toList.getLast?.filter (fun c => !c.isDigit) = none := by
  have last := List.getLast?_eq_some_getLast (digits_ne_nil n)
  have digit := isDigit_of_mem_padded (List.getLast_mem (digits_ne_nil n))
  rw [String.toList_append, List.getLast?_append, last]
  simp [digit]

theorem ending_suffix (camera suffix : String) (some_ : suffix.toList ≠ []) :
    (camera ++ suffix).toList.getLast? = suffix.toList.getLast? := by
  rw [String.toList_append, List.getLast?_append, List.getLast?_eq_some_getLast some_]
  rfl

theorem ColumnKey.ending_eq (key : ColumnKey) :
    key.name.toList.getLast?.filter (fun c => !c.isDigit) = key.ending := by
  cases key with
  | observationState dimension => exact ending_digits _ _
  | action dimension => exact ending_digits _ _
  | imagePath camera =>
    change (camera ++ "_path").toList.getLast?.filter (fun c => !c.isDigit) = some 'h'
    rw [ending_suffix camera "_path" (by simp)]
    decide
  | imageTimestamp camera =>
    change (camera ++ "_timestamp").toList.getLast?.filter (fun c => !c.isDigit) = some 'p'
    rw [ending_suffix camera "_timestamp" (by simp)]
    decide
  | _ => decide

/-- The names that end in an `x` are four texts. -/
theorem ColumnKey.plain_injective {a b : ColumnKey} (x : a.ending = some 'x')
    (ending_b : b.ending = some 'x') (same : a.name = b.name) : a = b := by
  cases a with
  | episodeIndex | frameIndex | index | taskIndex =>
    cases b with
    | episodeIndex | frameIndex | index | taskIndex =>
      first
      | exact Eq.refl _
      | exact absurd same (by decide)
    | _ => simp [ending] at ending_b
  | _ => simp [ending] at x

theorem timestamp_ne (camera : String) : "timestamp" ≠ camera ++ "_timestamp" := by
  intro same
  have lengths := congrArg (fun text : String => text.toList.length) same
  simp at lengths

theorem state_ne_action (i j : Nat) :
    "observation.state." ++ padded 0 i ≠ "action." ++ padded 0 j := by
  intro same
  have heads := congrArg (fun text : String => text.toList.head?) same
  simp at heads

theorem ColumnKey.name_injective : Function.Injective ColumnKey.name := by
  intro a b same
  have endings : a.ending = b.ending := by rw [← ending_eq, ← ending_eq, same]
  cases a with
  | episodeIndex | frameIndex | index | taskIndex => exact plain_injective rfl endings.symm same
  | timestamp =>
    cases b with
    | timestamp => exact Eq.refl _
    | imageTimestamp camera => exact absurd same (timestamp_ne camera)
    | _ => simp [ending] at endings
  | observationState i =>
    cases b with
    | observationState j => rw [padded_injective ((String.append_right_inj _).mp same)]
    | action j => exact absurd same (state_ne_action i j)
    | _ => simp [ending] at endings
  | action i =>
    cases b with
    | observationState j => exact absurd same.symm (state_ne_action j i)
    | action j => rw [padded_injective ((String.append_right_inj _).mp same)]
    | _ => simp [ending] at endings
  | imagePath camera =>
    cases b with
    | imagePath other => rw [(String.append_left_inj _).mp same]
    | _ => simp [ending] at endings
  | imageTimestamp camera =>
    cases b with
    | timestamp => exact absurd same.symm (timestamp_ne camera)
    | imageTimestamp other => rw [(String.append_left_inj _).mp same]
    | _ => simp [ending] at endings

/-! ### Reading a column -/

variable {frameData : List (LerobotFrame Value)} {episodeIndex chunk : Nat}

/-- The column of a name is the one of its key. -/
theorem columnOf_named {keyed : List (ColumnKey × ColumnValues Value)}
    (distinct : (keyed.map Prod.fst).Nodup) (key : ColumnKey) (values : ColumnValues Value) :
    columnOf (keyed.map fun column => ⟨column.1.name, column.2⟩) key = some values ↔
      (key, values) ∈ keyed := by
  induction keyed with
  | nil => simp [columnOf]
  | cons column rest ih =>
    obtain ⟨fresh, distinct⟩ := List.nodup_cons.mp distinct
    by_cases own : column.1 = key
    · have absent : (key, values) ∉ rest := fun member =>
        fresh (List.mem_map.mpr ⟨_, member, own.symm⟩)
      have found : columnOf ((column :: rest).map fun column =>
          (⟨column.1.name, column.2⟩ : Series Value)) key = some column.2 := by
        simp [columnOf, own]
      rw [found, List.mem_cons, or_iff_left absent, ← own, Prod.ext_iff, Option.some.injEq]
      exact ⟨fun same => ⟨rfl, same.symm⟩, fun same => same.2.symm⟩
    · have other : column.1.name ≠ key.name := fun same => own (ColumnKey.name_injective same)
      have passed : columnOf ((column :: rest).map fun column =>
          (⟨column.1.name, column.2⟩ : Series Value)) key =
          columnOf (rest.map fun column => ⟨column.1.name, column.2⟩) key := by
        simp [columnOf, other]
      have different : (key, values) ≠ column := fun same => own (by rw [← same])
      rw [passed, ih distinct, List.mem_cons, or_iff_right different]

theorem cameras_eq (frameData : List (LerobotFrame Value)) : cameras frameData =
    internAll [] (frameData.flatMap fun frame => frame.imageFrames.entries.map Prod.fst) := by
  unfold cameras internAll
  congr 1
  funext seen camera
  simp [intern]

theorem cameras_nodup (frameData : List (LerobotFrame Value)) : (cameras frameData).Nodup := by
  rw [cameras_eq]
  exact internAll_nodup List.nodup_nil _

/-- The cameras are those with an image in some frame. -/
theorem mem_cameras {camera : String} : camera ∈ cameras frameData ↔
    ∃ frame ∈ frameData, frame.imageFrames.get camera ≠ none := by
  have keyed : ∀ frame : LerobotFrame Value, camera ∈ frame.imageFrames.entries.map Prod.fst ↔
      frame.imageFrames.get camera ≠ none := fun frame => by
    rw [Kv.mem_keys, Option.isSome_iff_ne_none]
  rw [cameras_eq, mem_internAll, List.mem_flatMap]
  simp only [keyed, List.not_mem_nil, false_or]

theorem fillRows_images [Zero Value] (cameras : List String) (stateDim : Nat)
    (lastState lastAction : Option (List Value)) (frameData : List (LerobotFrame Value)) :
    (fillRows cameras episodeIndex chunk stateDim lastState lastAction frameData).map
        (·.imageFrames) =
      frameData.map fun frame => cameras.map fun camera =>
        (camera, imageReference episodeIndex chunk camera frame) := by
  induction frameData generalizing lastState lastAction with
  | nil => rfl
  | cons frame rest ih =>
    simp only [fillRows, List.map_cons, ih]
    rfl

/-! ### Forward fill -/

theorem carried_cons_succ (value : Option (List Value)) (values : List (Option (List Value)))
    (i : Nat) : carried (value :: values) (i + 1) = (carried values i).or value := by
  simp [carried, List.findSome?_append]

theorem carried_cons_zero (value : Option (List Value)) (values : List (Option (List Value))) :
    carried (value :: values) 0 = value := by
  simp [carried]

/-- The fill of the rows' loop: each frame's own value, or the last one seen. -/
def filled (last : Option (List Value)) : List (Option (List Value)) → List (Option (List Value))
  | [] => []
  | value :: rest => value.or last :: filled (value.or last) rest

theorem filled_eq (last : Option (List Value)) (values : List (Option (List Value))) :
    filled last values = (List.range values.length).map fun i => (carried values i).or last := by
  induction values generalizing last with
  | nil => rfl
  | cons value rest ih =>
    rw [filled, ih, List.length_cons, List.range_succ_eq_map, List.map_cons, List.map_map,
      carried_cons_zero]
    simp only [Function.comp_def, carried_cons_succ, Option.or_assoc]

theorem fillRows_states [Zero Value] (episodeIndex chunk : Nat) (cameras : List String) (stateDim : Nat)
    (lastState lastAction : Option (List Value)) (frameData : List (LerobotFrame Value)) :
    (fillRows cameras episodeIndex chunk stateDim lastState lastAction frameData).map
        (·.observationState) =
      (filled lastState (frameData.map (·.observationState))).map fun value =>
        value.getD (List.replicate stateDim 0) := by
  induction frameData generalizing lastState lastAction with
  | nil => rfl
  | cons frame rest ih => simp only [fillRows, filled, List.map_cons, ih]

theorem fillRows_actions [Zero Value] (episodeIndex chunk : Nat) (cameras : List String) (stateDim : Nat)
    (lastState lastAction : Option (List Value)) (frameData : List (LerobotFrame Value)) :
    (fillRows cameras episodeIndex chunk stateDim lastState lastAction frameData).map (·.action) =
      (filled lastAction (frameData.map (·.action))).map fun value =>
        value.getD (List.replicate stateDim 0) := by
  induction frameData generalizing lastState lastAction with
  | nil => rfl
  | cons frame rest ih => simp only [fillRows, filled, List.map_cons, ih]

theorem length_fillRows [Zero Value] (cameras : List String) (stateDim : Nat)
    (lastState lastAction : Option (List Value)) (frameData : List (LerobotFrame Value)) :
    (fillRows cameras episodeIndex chunk stateDim lastState lastAction frameData).length =
      frameData.length := by
  induction frameData generalizing lastState lastAction with
  | nil => rfl
  | cons frame rest ih => rw [fillRows, List.length_cons, List.length_cons, ih]

/-- A cell of a filled column is the carried value's component, whatever the padding. -/
theorem carriedColumn_filled [Zero Value] (values : List (Option (List Value))) (stateDim j : Nat) :
    ((filled none values).map fun value => value.getD (List.replicate stateDim 0)).map
        (fun value => value[j]?.getD 0) = carriedColumn values j := by
  rw [filled_eq, carriedColumn, List.map_map, List.map_map]
  refine List.map_congr_left fun i _ => ?_
  simp only [Function.comp_def, Option.or_none]
  cases carried values i with
  | some value => rfl
  | none =>
    by_cases inside : j < stateDim
    · simp [inside]
    · simp [not_lt.mp inside]

theorem stateColumn_eq [Zero Value] (stateDim j : Nat) :
    (fillRows (cameras frameData) episodeIndex chunk stateDim none none frameData).map
        (fun row => row.observationState[j]?.getD 0) =
      carriedColumn (frameData.map (·.observationState)) j := by
  rw [← carriedColumn_filled _ stateDim, ← fillRows_states episodeIndex chunk (cameras frameData) stateDim
    none none, List.map_map]
  rfl

theorem actionColumn_eq [Zero Value] (stateDim j : Nat) :
    (fillRows (cameras frameData) episodeIndex chunk stateDim none none frameData).map
        (fun row => row.action[j]?.getD 0) =
      carriedColumn (frameData.map (·.action)) j := by
  rw [← carriedColumn_filled _ stateDim, ← fillRows_actions episodeIndex chunk (cameras frameData) stateDim
    none none, List.map_map]
  rfl

/-! ### The columns there are -/

/-- The width the loop's rows give the action columns. -/
def actionWidth [Zero Value] (frameData : List (LerobotFrame Value)) (episodeIndex chunk stateDim : Nat) :
    Nat :=
  actionDim (fillRows (cameras frameData) episodeIndex chunk stateDim none none frameData)

def columnKeys (cameras : List String) (stateDim width : Nat) : List ColumnKey :=
  [ColumnKey.episodeIndex, ColumnKey.frameIndex, ColumnKey.index, ColumnKey.timestamp] ++
  (List.range stateDim).map ColumnKey.observationState ++ (List.range width).map ColumnKey.action ++
  [ColumnKey.taskIndex] ++
  cameras.flatMap fun camera => [ColumnKey.imagePath camera, ColumnKey.imageTimestamp camera]

theorem columnKeys_nodup {cameras : List String} (distinct : cameras.Nodup) (stateDim width : Nat) :
    (columnKeys cameras stateDim width).Nodup := by
  have states : ((List.range stateDim).map ColumnKey.observationState).Nodup :=
    List.nodup_range.map fun _ _ same => ColumnKey.observationState.inj same
  have actions : ((List.range width).map ColumnKey.action).Nodup :=
    List.nodup_range.map fun _ _ same => ColumnKey.action.inj same
  have images : (cameras.flatMap fun camera =>
      [ColumnKey.imagePath camera, ColumnKey.imageTimestamp camera]).Nodup := by
    refine List.nodup_flatMap.mpr ⟨by simp, distinct.imp fun different => ?_⟩
    simp [Function.onFun, Ne.symm different]
  have front : (([.episodeIndex, .frameIndex, .index, .timestamp] : List ColumnKey) ++
      (List.range stateDim).map ColumnKey.observationState ++
      (List.range width).map ColumnKey.action ++ [ColumnKey.taskIndex]).Nodup := by
    simp only [List.nodup_append, states, actions]
    simp
    rintro _ (⟨_, -, rfl⟩ | ⟨_, -, rfl⟩) <;> simp
  refine List.nodup_append.mpr ⟨front, images, fun a before b member => ?_⟩
  obtain ⟨camera, -, shape⟩ := List.mem_flatMap.mp member
  simp only [List.mem_cons, List.not_mem_nil, or_false] at shape
  rcases shape with rfl | rfl
  · rintro rfl
    simp at before
  · rintro rfl
    simp at before

theorem seriesOf_keys [Zero Value] (stateDim : Nat) :
    (seriesOf frameData episodeIndex chunk stateDim).map Prod.fst =
      columnKeys (cameras frameData) stateDim (actionWidth frameData episodeIndex chunk stateDim) := by
  simp [seriesOf, columnKeys, actionWidth, Function.comp_def, List.map_flatMap]

theorem mem_state [Zero Value] (stateDim j : Nat) (values : ColumnValues Value) :
    (.observationState j, values) ∈ seriesOf frameData episodeIndex chunk stateDim ↔
      j < stateDim ∧
        values = .float32 (carriedColumn (frameData.map (·.observationState)) j) := by
  simp only [seriesOf, stateColumn_eq]
  simp [eq_comm]

variable (frameData episodeIndex chunk) in
theorem mem_action [Zero Value] (stateDim j : Nat) (values : ColumnValues Value) :
    (.action j, values) ∈ seriesOf frameData episodeIndex chunk stateDim ↔
      j < actionWidth frameData episodeIndex chunk stateDim ∧
        values = .float32 (carriedColumn (frameData.map (·.action)) j) := by
  simp only [seriesOf, actionColumn_eq, actionWidth]
  simp [eq_comm]

theorem seriesOf_lengths [Zero Value] (stateDim : Nat) :
    ∀ column ∈ seriesOf frameData episodeIndex chunk stateDim,
      column.2.length = frameData.length := by
  intro column member
  simp only [seriesOf, List.mem_append, List.mem_map, List.mem_flatMap, List.mem_cons,
    List.not_mem_nil, or_false] at member
  rcases member with ((((rfl | rfl | rfl | rfl) | ⟨i, -, rfl⟩) | ⟨i, -, rfl⟩) | rfl) |
    ⟨camera, -, rfl | rfl⟩ <;> simp [ColumnValues.length, length_fillRows]

/-! ### The width of the action columns -/

theorem actionWidth_first [Zero Value] {frame : LerobotFrame Value}
    {rest : List (LerobotFrame Value)} {action : List Value} (held : frame.action = some action)
    (some_ : action ≠ []) (stateDim : Nat) :
    actionWidth (frame :: rest) episodeIndex chunk stateDim = action.length := by
  simp [actionWidth, actionDim, fillRows, held, some_]

/-- Before the first action the placeholders are as wide as a state. -/
theorem actionWidth_placeholder [Zero Value] {frame : LerobotFrame Value}
    {rest : List (LerobotFrame Value)} (absent : frame.action = none) {stateDim : Nat}
    (wide : stateDim ≠ 0) : actionWidth (frame :: rest) episodeIndex chunk stateDim = stateDim := by
  simp [actionWidth, actionDim, fillRows, absent, wide]

/-- Placeholders of no width are passed over. -/
theorem actionDim_narrow [Zero Value] (cameras : List String) {d : Nat} (positive : 1 ≤ d)
    {frameData : List (LerobotFrame Value)}
    (lengths : ∀ frame ∈ frameData, ∀ action, frame.action = some action → action.length = d)
    (some_ : ∃ frame ∈ frameData, frame.action ≠ none) (lastState : Option (List Value)) :
    actionDim (fillRows cameras episodeIndex chunk 0 lastState none frameData) = d := by
  induction frameData generalizing lastState with
  | nil =>
    obtain ⟨_, member, -⟩ := some_
    cases member
  | cons frame rest ih =>
    cases held : frame.action with
    | some action =>
      have length := lengths frame List.mem_cons_self action held
      have nonempty : action ≠ [] := List.ne_nil_of_length_pos (by omega)
      simp [actionDim, fillRows, held, nonempty, length]
    | none =>
      have later : ∃ frame ∈ rest, frame.action ≠ none := by
        obtain ⟨other, member, acts⟩ := some_
        rcases List.mem_cons.mp member with rfl | member
        · exact absurd held acts
        · exact ⟨other, member, acts⟩
      have tail := ih (fun frame member => lengths frame (List.mem_cons_of_mem _ member)) later
        (frame.observationState.or lastState)
      simpa [actionDim, fillRows, held] using tail

variable (episodeIndex chunk) in
theorem Shaped.actionWidth_iff [Zero Value] {s d : Nat} (shaped : Shaped frameData s d) :
    actionWidth frameData episodeIndex chunk s = d ↔
      (∃ frame ∈ frameData.head?, frame.action ≠ none) ∨ s = d ∨ s = 0 := by
  by_cases narrow : s = 0
  · subst narrow
    exact iff_of_true (actionDim_narrow _ shaped.positive shaped.actions shaped.someAction none)
      (.inr (.inr rfl))
  · cases frameData with
    | nil =>
      obtain ⟨_, member, -⟩ := shaped.someAction
      cases member
    | cons frame rest =>
      have positive := shaped.positive
      cases held : frame.action with
      | some action =>
        have length := shaped.actions frame List.mem_cons_self action held
        rw [actionWidth_first held (List.ne_nil_of_length_pos (by omega)) s]
        exact iff_of_true length (.inl ⟨frame, rfl, by simp [held]⟩)
      | none =>
        rw [actionWidth_placeholder held narrow]
        simp [held, narrow]

/-! ### The recorded dimensions -/

theorem recordDims_state (stateDims : Kv String Nat) (frame : LerobotFrame Value) :
    (recordDims stateDims frame).get "observation.state" =
      (frame.observationState.map List.length).or (stateDims.get "observation.state") := by
  have apart : "observation.state" ≠ "action" := by decide
  unfold recordDims
  cases frame.observationState <;> cases frame.action <;> simp [Kv.get_put_ne _ apart]

theorem recordDims_action (stateDims : Kv String Nat) (frame : LerobotFrame Value) :
    (recordDims stateDims frame).get "action" =
      (frame.action.map List.length).or (stateDims.get "action") := by
  have apart : "action" ≠ "observation.state" := by decide
  unfold recordDims
  cases frame.observationState <;> cases frame.action <;> simp [Kv.get_put_ne _ apart]

/-- A dimension that every frame with the feature records is the recorded one. -/
theorem infoShape_foldl {feature : String} {value : LerobotFrame Value → Option (List Value)} {n : Nat}
    (step : ∀ stateDims frame, (recordDims stateDims frame).get feature =
      ((value frame).map List.length).or (stateDims.get feature))
    (lengths : ∀ frame ∈ frameData, ∀ values, value frame = some values → values.length = n)
    (stateDims : Kv String Nat)
    (known : stateDims.get feature = some n ∨ ∃ frame ∈ frameData, value frame ≠ none) :
    infoShape (frameData.foldl recordDims stateDims) feature = some [n] := by
  induction frameData generalizing stateDims with
  | nil =>
    have held : stateDims.get feature = some n := by simpa using known
    rw [List.foldl_nil, infoShape, held]
    rfl
  | cons frame rest ih =>
    rw [List.foldl_cons]
    refine ih (fun frame member => lengths frame (List.mem_cons_of_mem _ member)) _ ?_
    rw [step]
    cases held : value frame with
    | some values =>
      have length := lengths frame List.mem_cons_self values held
      exact .inl (by simp [length])
    | none =>
      rcases known with known | ⟨other, member, some_⟩
      · exact .inl (by simpa using known)
      · rcases List.mem_cons.mp member with rfl | member
        · exact absurd held some_
        · exact .inr ⟨other, member, some_⟩

/-! ### Every value in its column -/

/-- The first state found has the length of all. -/
theorem Shaped.stateDim {s d : Nat} (shaped : Shaped frameData s d) :
    ∃ state, frameData.findSome? (·.observationState) = some state ∧ state.length = s := by
  cases found : frameData.findSome? (·.observationState) with
  | none =>
    obtain ⟨frame, member, some_⟩ := shaped.someState
    exact absurd (List.findSome?_eq_none_iff.mp found frame member) some_
  | some state =>
    obtain ⟨frame, member, held⟩ := List.exists_of_findSome?_eq_some found
    exact ⟨state, rfl, shaped.states frame member state held⟩

theorem Shaped.episodeColumns_ok [Zero Value] {s d : Nat} (shaped : Shaped frameData s d) :
    episodeColumns frameData episodeIndex chunk =
      .ok ((seriesOf frameData episodeIndex chunk s).map fun column =>
        ⟨column.1.name, column.2⟩) := by
  obtain ⟨state, found, rfl⟩ := shaped.stateDim
  rw [episodeColumns, found]

/-- What the column of a key is, when its presence and its values are known. -/
theorem columnOf_iff [Zero Value] {key : ColumnKey} {present : Prop} [Decidable present]
    {stateDim : Nat} {column : ColumnValues Value}
    (member : ∀ values, (key, values) ∈ seriesOf frameData episodeIndex chunk stateDim ↔
      present ∧ values = column) :
    columnOf ((seriesOf frameData episodeIndex chunk stateDim).map fun column =>
      ⟨column.1.name, column.2⟩) key = if present then some column else none := by
  have distinct : ((seriesOf frameData episodeIndex chunk stateDim).map Prod.fst).Nodup := by
    rw [seriesOf_keys]
    exact columnKeys_nodup (cameras_nodup frameData) _ _
  ext values
  rw [columnOf_named distinct, member]
  split
  · simp [*, eq_comm]
  · simp [*]

/-- The columns carry every value exactly if no placeholder comes before the first action,
or the placeholders are as wide as an action or of no width at all. -/
theorem columns_carry_every_value_iff [Zero Value] {frameData : List (LerobotFrame Value)} {s d : Nat}
    (shaped : Shaped frameData s d) (episodeIndex chunk : Nat) (stateDims : Kv String Nat) :
    ∃ columns, episodeColumns frameData episodeIndex chunk = .ok columns ∧
      (CarriesEveryValue frameData s d columns stateDims ↔
        (∃ frame ∈ frameData.head?, frame.action ≠ none) ∨ s = d ∨ s = 0) := by
  refine ⟨_, shaped.episodeColumns_ok, ?_⟩
  rw [← shaped.actionWidth_iff episodeIndex chunk]
  have actions := fun j => columnOf_iff (mem_action frameData episodeIndex chunk s j)
  constructor
  · intro carries
    have widths : ∀ j, j < actionWidth frameData episodeIndex chunk s ↔ j < d := by
      intro j
      have both := (actions j).symm.trans (carries.actions j)
      by_cases wide : j < actionWidth frameData episodeIndex chunk s <;> by_cases own : j < d <;>
        simp [wide, own] at both ⊢
    have low := widths d
    have high := widths (actionWidth frameData episodeIndex chunk s)
    omega
  · intro width
    rw [width] at actions
    refine ⟨?_, ?_, ?_, actions, ?_, ?_⟩
    · rw [List.map_map]
      have keys := columnKeys_nodup (cameras_nodup frameData) s
        (actionWidth frameData episodeIndex chunk s)
      rw [← seriesOf_keys] at keys
      have names := keys.map ColumnKey.name_injective
      rwa [List.map_map] at names
    · intro column member
      obtain ⟨keyed, listed, rfl⟩ := List.mem_map.mp member
      exact seriesOf_lengths s keyed listed
    · exact fun j => columnOf_iff (mem_state s j)
    · exact infoShape_foldl recordDims_state shaped.states stateDims (.inr shaped.someState)
    · exact infoShape_foldl recordDims_action shaped.actions stateDims (.inr shaped.someAction)

def frameOf (state : List Nat) (action : Option (List Nat)) : LerobotFrame Nat :=
  ⟨0, 0, 0, 0, some state, action, none, .empty⟩

/-- One frame with a state of one component and an action of three. -/
theorem shaped_acting : Shaped [frameOf [1] (some [7, 8, 9])] 1 3 where
  states := by simp [frameOf]
  actions := by simp [frameOf]
  someState := ⟨_, List.mem_cons_self, by simp [frameOf]⟩
  someAction := ⟨_, List.mem_cons_self, by simp [frameOf]⟩
  positive := by omega

theorem columns_carry_every_value_acting :
    ∃ columns, episodeColumns [frameOf [1] (some [7, 8, 9])] 0 0 = .ok columns ∧
      (CarriesEveryValue [frameOf [1] (some [7, 8, 9])] 1 3 columns .empty ↔
        (∃ frame ∈ [frameOf [1] (some [7, 8, 9])].head?, frame.action ≠ none) ∨ 1 = 3 ∨ 1 = 0) :=
  columns_carry_every_value_iff shaped_acting 0 0 .empty

/-- The same with a frame before it that has no action. -/
def lateAction : List (LerobotFrame Nat) := [frameOf [1] none, frameOf [1] (some [7, 8, 9])]

theorem shaped_lateAction : Shaped lateAction 1 3 where
  states := by simp [lateAction, frameOf]
  actions := by simp [lateAction, frameOf]
  someState := ⟨_, List.mem_cons_self, by simp [frameOf]⟩
  someAction := ⟨_, List.mem_cons_of_mem _ List.mem_cons_self, by simp [frameOf]⟩
  positive := by omega

/-- One action column, and the shape says three. -/
theorem late_action_loses_columns :
    Shaped lateAction 1 3 ∧ ¬ ∃ columns, episodeColumns lateAction 0 0 = .ok columns ∧
      CarriesEveryValue lateAction 1 3 columns .empty := by
  refine ⟨shaped_lateAction, ?_⟩
  rintro ⟨columns, made, carries⟩
  rw [shaped_lateAction.episodeColumns_ok] at made
  cases made
  have missing := columnOf_iff (mem_action lateAction 0 0 1 2)
  have width : actionWidth lateAction 0 0 1 = 1 := rfl
  rw [carries.actions 2, width] at missing
  cases missing

end Roboflow.Lerobot
