import Roboflow.Alignment.Buffer

/-! The dataset pipeline executor, `roboflow-pipeline/src/executor.rs`. Message data
comes from the codec, which is not part of the repository: a payload is what the
executor finds in it. The writer is an oracle that answers each call from the calls
made before, so that every pattern of results is some writer's. A failed call ends
the method with the state it has reached. -/
namespace Roboflow.Pipeline
open Library
open Roboflow.Alignment (AlignedFrame ImageData)

/-! ### Messages and frames -/

/-- The fields of a struct that the executor asks for: `format` where it is a string,
the bytes and numbers its helpers extract, and the numbers of a `position` array. -/
structure StructFields (Value : Type) where
  hasK : Bool
  hasD : Bool
  format : Option String
  data : Option (List UInt8)
  width : Option Nat
  height : Option Nat
  position : Option (List Value)

inductive Payload (Value : Type) where
  | array (numbers : List Value)
  | struct (fields : StructFields Value)
  | other

structure TimestampedMessage (Value : Type) where
  topic : String
  logTime : Nat
  data : Payload Value

inductive EpisodeStrategy where
  | single
  | gapBased (thresholdNs : Nat)
  | frameCount (maxFrames : Nat)
  deriving DecidableEq

/-- The configuration, with the two numbers read from its streaming part and the
reader of image dimensions. -/
structure DatasetPipelineConfig where
  frameIntervalNs : Nat
  completionWindowNs : Nat
  maxFrames : Option Nat
  episodeStrategy : EpisodeStrategy
  topicMappings : Kv String String
  imageDimensions : List UInt8 → Nat × Nat

def Payload.isCameraInfo : Payload Value → Bool
  | .struct fields => fields.hasK && fields.hasD
  | _ => false

/-- The topic with its slashes as dots, without leading dots. -/
def topicFeature (topic : String) : String :=
  String.ofList ((topic.toList.map fun c => if c = '/' then '.' else c).dropWhile (· = '.'))

/-- The feature a topic is for; with mappings, an unmapped topic is skipped. -/
def DatasetPipelineConfig.featureName (config : DatasetPipelineConfig) (topic : String) :
    Option String :=
  if config.topicMappings.entries = [] then some (topicFeature topic)
  else config.topicMappings.get topic

def isAction (feature : String) : Bool :=
  feature = "action" || decide (".action".toList <:+: feature.toList)

def encodedImage (width height : Nat) (data : List UInt8) : ImageData :=
  ⟨width, height, data, 0, true, false⟩

/-- `(width as usize) * (height as usize) * 3`, which wraps around. -/
def expectedRgbSize (width height : Nat) : Nat := width * height * 3 % 2 ^ 64

/-- `ImageData::new_rgb`. -/
def newRgbImage (width height : Nat) (data : List UInt8) : Except String ImageData :=
  let expectedSize := expectedRgbSize width height
  if data.length ≠ expectedSize then
    .error s!"Size mismatch: {width}x{height} expects {expectedSize} bytes, got {data.length}"
  else .ok ⟨width, height, data, 0, false, false⟩

/-- What one message gives a frame. -/
inductive Contribution (Value : Type) where
  | image (data : ImageData)
  | state (values : List Value)
  | action (values : List Value)

def numericContribution (feature : String) (numbers : List Value) : Option (Contribution Value) :=
  if numbers.isEmpty then none
  else if isAction feature then some (.action numbers)
  else some (.state numbers)

/-- The branches of `process_message_for_frame` after the feature name. -/
def structContribution (config : DatasetPipelineConfig) (feature : String)
    (fields : StructFields Value) : Except String (Option (Contribution Value)) :=
  if fields.hasK && fields.hasD then .ok none
  else
    match fields.format, fields.data with
    | some _, some bytes =>
      let (width, height) := config.imageDimensions bytes
      .ok (some (.image (encodedImage width height bytes)))
    | _, _ =>
      match fields.width, fields.height, fields.data with
      | some width, some height, some bytes =>
        if bytes.length < expectedRgbSize width height then
          .ok (some (.image (encodedImage width height bytes)))
        else
          match newRgbImage width height bytes with
          | .ok image => .ok (some (.image image))
          | .error e => .error ("Invalid image data: " ++ e)
      | _, _, _ =>
        match fields.position with
        | some numbers => .ok (numericContribution feature numbers)
        | none => .ok none

/-- The feature and the data a message adds to a frame. -/
def contribution (config : DatasetPipelineConfig) (msg : TimestampedMessage Value) :
    Except String (Option (String × Contribution Value)) :=
  match config.featureName msg.topic with
  | none => .ok none
  | some feature =>
    match msg.data with
    | .array numbers => .ok ((numericContribution feature numbers).map (feature, ·))
    | .struct fields => (structContribution config feature fields).map (·.map (feature, ·))
    | .other => .ok none

/-- `add_image`, `add_state` or `add_action`. -/
def addContribution (frame : AlignedFrame Value) (feature : String) :
    Contribution Value → AlignedFrame Value
  | .image data => { frame with images := frame.images.put feature data }
  | .state values => { frame with states := frame.states.put feature values }
  | .action values => { frame with actions := frame.actions.put feature values }

def processMessageForFrame (config : DatasetPipelineConfig) (frame : AlignedFrame Value)
    (msg : TimestampedMessage Value) : Except String (AlignedFrame Value) := do
  match ← contribution config msg with
  | none => .ok frame
  | some (feature, data) => .ok (addContribution frame feature data)

def frameIsEmpty (frame : AlignedFrame Value) : Bool :=
  frame.images.entries.isEmpty && frame.states.entries.isEmpty && frame.actions.entries.isEmpty

/-- `messages_to_frame`. -/
def messagesToFrame (config : DatasetPipelineConfig) (frameIndex : Nat)
    (messages : List (TimestampedMessage Value)) (timestamp : Nat) :
    Except String (Option (AlignedFrame Value)) := do
  let frame ← messages.foldlM (processMessageForFrame config) (.new frameIndex timestamp)
  .ok (if frameIsEmpty frame then none else some frame)

/-! ### The executor -/

inductive WriterCall (Value : Type) where
  | startEpisode (index : Nat)
  | writeFrame (frame : AlignedFrame Value)
  | finishEpisode
  | finalize

/-- The calls made to the writer and whether they succeeded, newest first. -/
abbrev WriterLog (Value : Type) := List (WriterCall Value × Bool)

/-- Whether a call succeeds, given the calls before it. -/
abbrev Writer (Value : Type) := WriterLog Value → WriterCall Value → Bool

structure Executor (Value : Type) where
  messageBuffer : Kv Nat (List (TimestampedMessage Value))
  currentTimestampNs : Option Nat
  endTimestampNs : Option Nat
  lastTimestampNs : Option Nat
  frameIndex : Nat
  episodeIndex : Nat
  framesInEpisode : Nat
  episodeStarted : Bool
  processedCameraInfo : List String
  framesWritten : Nat
  episodesWritten : Nat
  messagesProcessed : Nat
  /-- What the writer has seen. -/
  log : WriterLog Value

def Executor.new : Executor Value where
  messageBuffer := .empty
  currentTimestampNs := none
  endTimestampNs := none
  lastTimestampNs := none
  frameIndex := 0
  episodeIndex := 0
  framesInEpisode := 0
  episodeStarted := false
  processedCameraInfo := []
  framesWritten := 0
  episodesWritten := 0
  messagesProcessed := 0
  log := []

/-- The state a method ends in, whether it returned `Ok` or `Err`. -/
def reached : Except (Executor Value) (Executor Value) → Executor Value
  | .ok s => s
  | .error s => s

@[simp] theorem reached_ok (s : Executor Value) : reached (.ok s) = s := rfl

@[simp] theorem reached_error (s : Executor Value) : reached (.error s) = s := rfl

namespace Executor

/-- A call of the writer. -/
def call (writer : Writer Value) (s : Executor Value) (c : WriterCall Value) :
    Except (Executor Value) (Executor Value) :=
  let answer := writer s.log c
  let s := { s with log := (c, answer) :: s.log }
  if answer then .ok s else .error s

def writeFrame (writer : Writer Value) (s : Executor Value) (frame : AlignedFrame Value) :
    Except (Executor Value) (Executor Value) := do
  let s ← s.call writer (.writeFrame frame)
  .ok { s with
    framesWritten := s.framesWritten + 1
    frameIndex := s.frameIndex + 1
    framesInEpisode :=
      if frame.images.entries.isEmpty then s.framesInEpisode else s.framesInEpisode + 1 }

def finishEpisode (writer : Writer Value) (s : Executor Value) :
    Except (Executor Value) (Executor Value) :=
  if !s.episodeStarted then .ok s
  else do
    let s ← s.call writer .finishEpisode
    .ok { s with episodesWritten := s.episodesWritten + 1, episodeStarted := false }

/-- The state is set before the writer is asked. -/
def startEpisode (writer : Writer Value) (s : Executor Value) (index : Nat) :
    Except (Executor Value) (Executor Value) := do
  let s ← if s.episodeStarted && s.episodeIndex ≠ index then s.finishEpisode writer else .ok s
  let s := { s with episodeIndex := index, framesInEpisode := 0, episodeStarted := true }
  s.call writer (.startEpisode index)

/-- The least buffered timestamp that passes the filter. -/
def nextTimestamp (s : Executor Value) (keep : Nat → Bool) : Option Nat :=
  ((s.messageBuffer.entries.map Prod.fst).filter keep).min?

/-- The next timestamp after a bucket was removed: the first within the completion
window, else the first after the bucket. -/
def nextCurrent (config : DatasetPipelineConfig) (s : Executor Value) (timestamp : Nat) :
    Option Nat :=
  let inWindow := s.nextTimestamp fun t =>
    timestamp ≤ t && t - timestamp ≤ config.completionWindowNs
  inWindow.or (s.nextTimestamp (timestamp < ·))

/-- The frame of a removed bucket, if it gives one, to the writer. -/
def writeBucket (writer : Writer Value) (config : DatasetPipelineConfig) (s : Executor Value)
    (timestamp : Nat) (messages : List (TimestampedMessage Value)) :
    Except (Executor Value) (Executor Value) :=
  match messagesToFrame config s.frameIndex messages timestamp with
  | .ok (some frame) => s.writeFrame writer frame
  | .ok none => .ok s
  | .error _ => .ok s

/-- The loop of `process_complete_frames`; every pass but the last empties a bucket. -/
def completeFrames (writer : Writer Value) (config : DatasetPipelineConfig) :
    Nat → Executor Value → Except (Executor Value) (Executor Value)
  | 0, s => .ok s
  | fuel + 1, s =>
    match s.currentTimestampNs with
    | none => .ok s
    | some timestamp =>
      match s.messageBuffer.get timestamp with
      | some messages => do
        let s := { s with messageBuffer := s.messageBuffer.delete timestamp }
        let s ← s.writeBucket writer config timestamp messages
        completeFrames writer config fuel
          { s with currentTimestampNs := s.nextCurrent config timestamp }
      | none => .ok { s with currentTimestampNs := s.nextTimestamp (timestamp < ·) }

/-- One pass of the loop, at a timestamp that has a bucket. -/
theorem completeFrames_pass {writer : Writer Value} {config : DatasetPipelineConfig}
    {s : Executor Value} (current : s.currentTimestampNs = some timestamp)
    (bucket : s.messageBuffer.get timestamp = some messages) (fuel : Nat) :
    completeFrames writer config (fuel + 1) s =
      (({ s with messageBuffer := s.messageBuffer.delete timestamp }).writeBucket writer config
        timestamp messages).bind fun s =>
          completeFrames writer config fuel
            { s with currentTimestampNs := s.nextCurrent config timestamp } := by
  obtain ⟨buffer, now, rest⟩ := s
  simp only at current bucket
  subst current
  simp only [completeFrames, bucket]
  rfl

def processCompleteFrames (writer : Writer Value) (config : DatasetPipelineConfig)
    (s : Executor Value) : Except (Executor Value) (Executor Value) :=
  completeFrames writer config (s.messageBuffer.entries.length + 1) s

/-- The message is past the gap after the last one. -/
def crossesGap (s : Executor Value) (thresholdNs logTime : Nat) : Bool :=
  match s.lastTimestampNs with
  | none => false
  | some last => last < logTime && thresholdNs < logTime - last

/-- The message is the first of a new episode. -/
def atBoundary (config : DatasetPipelineConfig) (s : Executor Value) (logTime : Nat) : Bool :=
  match config.episodeStrategy with
  | .single => false
  | .gapBased thresholdNs => s.crossesGap thresholdNs logTime
  | .frameCount maxFrames => maxFrames ≤ s.framesInEpisode

/-- The episode boundaries of `process_message`: the automatic start, then the end of
one episode and the start of the next. -/
def processBoundary (writer : Writer Value) (config : DatasetPipelineConfig) (s : Executor Value)
    (logTime : Nat) : Except (Executor Value) (Executor Value) := do
  let s ← if !s.episodeStarted then s.startEpisode writer 0 else .ok s
  if s.atBoundary config logTime then do
    let s ← s.finishEpisode writer
    s.startEpisode writer (s.episodeIndex + 1)
  else .ok s

def alignedTimestamp (config : DatasetPipelineConfig) (logTime : Nat) : Nat :=
  logTime / config.frameIntervalNs * config.frameIntervalNs

/-- The message into its bucket. -/
def buffered (config : DatasetPipelineConfig) (s : Executor Value)
    (msg : TimestampedMessage Value) : Executor Value :=
  let aligned := alignedTimestamp config msg.logTime
  { s with
    messageBuffer := s.messageBuffer.put aligned ((s.messageBuffer.get aligned).getD [] ++ [msg])
    currentTimestampNs := s.currentTimestampNs.or (some aligned)
    endTimestampNs := some (max aligned (s.endTimestampNs.getD 0)) }

def atFrameLimit (config : DatasetPipelineConfig) (s : Executor Value) : Bool :=
  match config.maxFrames with
  | none => false
  | some limit => limit ≤ s.framesWritten

def processMessage (writer : Writer Value) (config : DatasetPipelineConfig) (s : Executor Value)
    (msg : TimestampedMessage Value) : Except (Executor Value) (Executor Value) := do
  let s := { s with messagesProcessed := s.messagesProcessed + 1 }
  if s.atFrameLimit config then .ok s
  else
    let s ← s.processBoundary writer config msg.logTime
    let s := { s with lastTimestampNs := some msg.logTime }
    if msg.data.isCameraInfo && s.processedCameraInfo.contains msg.topic then .ok s
    else
      let s := if msg.data.isCameraInfo then
          { s with processedCameraInfo := msg.topic :: s.processedCameraInfo }
        else s
      (s.buffered config msg).processCompleteFrames writer config

/-- `finalize`, with the order in which the map is drained. -/
def finalize (writer : Writer Value) (config : DatasetPipelineConfig) (s : Executor Value)
    (remaining : List (Nat × List (TimestampedMessage Value))) :
    Except (Executor Value) (Executor Value) := do
  let s := { s with messageBuffer := .empty }
  let s ← remaining.foldlM (fun s bucket =>
    if bucket.2.isEmpty then .ok s else s.writeBucket writer config bucket.1 bucket.2) s
  let s ← if s.episodeStarted then s.finishEpisode writer else .ok s
  s.call writer .finalize

/-- The frames of the drained buckets. -/
def drain (writer : Writer Value) (config : DatasetPipelineConfig) (s : Executor Value)
    (remaining : List (Nat × List (TimestampedMessage Value))) :
    Except (Executor Value) (Executor Value) :=
  remaining.foldlM (fun s bucket =>
    if bucket.2.isEmpty then .ok s else s.writeBucket writer config bucket.1 bucket.2) s

theorem finalize_eq (writer : Writer Value) (config : DatasetPipelineConfig) (s : Executor Value)
    (remaining : List (Nat × List (TimestampedMessage Value))) :
    s.finalize writer config remaining =
      (({ s with messageBuffer := .empty }).drain writer config remaining).bind fun s =>
        (if s.episodeStarted then s.finishEpisode writer else .ok s).bind fun s =>
          s.call writer .finalize := by
  unfold finalize drain
  simp only [bind]
  congr 1
  funext s
  cases s.episodeStarted <;> rfl

end Executor

end Roboflow.Pipeline
