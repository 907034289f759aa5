import Roboflow.Library.BinarySearch
import Roboflow.Library.Kv
import Roboflow.Library.Machine

/-! The frame alignment buffer of `formats/alignment/buffer.rs`, with its
configuration, its completion criteria and its statistics. Messages come from
the codec and images through the decoder, neither of which is part of the
repository, so what they extract is a parameter. Nanoseconds and indices are
natural numbers; the source saturates where the sums here are cut off. -/
namespace Roboflow.Alignment
open Library

def saturatingAdd (a b : Nat) : Nat := min (a + b) (2 ^ 64 - 1)

/-! ### Configuration and criteria -/

structure StreamingConfig where
  fps : Nat
  completionWindowNs : Nat
  featureRequirements : Kv String Nat

namespace StreamingConfig

def frameIntervalNs (config : StreamingConfig) : Nat := 1000000000 / config.fps

def defaultCompletionWindow (fps : Nat) : Nat := 1000000000 / fps * 3

def withFps (fps : Nat) : StreamingConfig where
  fps := fps
  completionWindowNs := defaultCompletionWindow fps
  featureRequirements := .empty

end StreamingConfig

structure FrameCompletionCriteria where
  features : Kv String Nat

namespace FrameCompletionCriteria

def isComplete (criteria : FrameCompletionCriteria) (received : Finset String) : Bool :=
  let required := criteria.features.entries
  if required.any fun entry => (received.filter (· = entry.1)).card < entry.2 then false
  else if required ≠ [] ∧ received = ∅ then false
  else if required = [] ∧ received ≠ ∅ then true
  else if required = [] ∧ received = ∅ then false
  else true

/-- `build_completion_criteria`. -/
def ofConfig (config : StreamingConfig) : FrameCompletionCriteria := ⟨config.featureRequirements⟩

end FrameCompletionCriteria

structure AlignmentStats where
  framesProcessed : Nat
  normalCompletions : Nat
  forceCompletions : Nat
  peakBufferSize : Nat
  deriving DecidableEq

namespace AlignmentStats

def new : AlignmentStats := ⟨0, 0, 0, 0⟩

def recordNormalCompletion (stats : AlignmentStats) : AlignmentStats :=
  { stats with
    normalCompletions := stats.normalCompletions + 1
    framesProcessed := stats.framesProcessed + 1 }

def recordForceCompletion (stats : AlignmentStats) : AlignmentStats :=
  { stats with
    forceCompletions := stats.forceCompletions + 1
    framesProcessed := stats.framesProcessed + 1 }

def updatePeakBuffer (stats : AlignmentStats) (currentSize : Nat) : AlignmentStats :=
  if stats.peakBufferSize < currentSize then { stats with peakBufferSize := currentSize } else stats

end AlignmentStats

/-! ### Frames -/

structure ImageData where
  width : Nat
  height : Nat
  data : List UInt8
  originalTimestamp : Nat
  isEncoded : Bool
  isDepth : Bool

structure ExtractedImageData where
  width : Nat
  height : Nat

/-- What the codec and the decoder find in a message. -/
structure Extraction (Message Value : Type) where
  processImageData : Message → String → Option ExtractedImageData × Option (List UInt8) × Bool
  numericValues : Message → List Value

structure AlignedFrame (Value : Type) where
  frameIndex : Nat
  timestamp : Nat
  images : Kv String ImageData
  states : Kv String (List Value)
  actions : Kv String (List Value)

def AlignedFrame.new (frameIndex timestamp : Nat) : AlignedFrame Value :=
  ⟨frameIndex, timestamp, .empty, .empty, .empty⟩

structure PartialFrame (Value : Type) where
  timestamp : Nat
  index : Nat
  frame : AlignedFrame Value
  receivedFeatures : Finset String
  eligibleTimestamp : Nat

def PartialFrame.new (index timestamp eligibleTimestamp : Nat) : PartialFrame Value :=
  ⟨timestamp, index, .new index timestamp, ∅, eligibleTimestamp⟩

def PartialFrame.addFeature (partialFrame : PartialFrame Value) (feature : String) : PartialFrame Value :=
  { partialFrame with receivedFeatures := insert feature partialFrame.receivedFeatures }

structure TimestampedMessage (Message : Type) where
  logTime : Nat
  message : Message
  deriving DecidableEq

/-- Steps 4 to 6 of `process_message`, on the entry of the message's frame. -/
def PartialFrame.add (extraction : Extraction Message Value) (message : TimestampedMessage Message)
    (feature : String) (entry : PartialFrame Value) : PartialFrame Value :=
  let entry := entry.addFeature feature
  let (info, decoded, isEncoded) := extraction.processImageData message.message feature
  let values := extraction.numericValues message.message
  let images := match decoded with
    | none => entry.frame.images
    | some data => entry.frame.images.put feature
        { width := (info.map (·.width)).getD 0
          height := (info.map (·.height)).getD 0
          data := data
          originalTimestamp := message.logTime
          isEncoded := isEncoded
          isDepth := false }
  let isAction := "action.".isPrefixOf feature
  let states := if values ≠ [] ∧ !isAction then entry.frame.states.put feature values
    else entry.frame.states
  let actions := if values ≠ [] ∧ isAction then entry.frame.actions.put feature values
    else entry.frame.actions
  { entry with frame := { entry.frame with images := images, states := states, actions := actions } }

/-! ### The buffer -/

structure FrameAlignmentBuffer (Value : Type) where
  activeFrames : List (PartialFrame Value)
  config : StreamingConfig
  completionCriteria : FrameCompletionCriteria
  stats : AlignmentStats
  nextFrameIndex : Nat
  currentTimestamp : Nat

namespace FrameAlignmentBuffer

def withCompletionCriteria (config : StreamingConfig) (criteria : FrameCompletionCriteria) :
    FrameAlignmentBuffer Value :=
  ⟨[], config, criteria, .new, 0, 0⟩

def new (config : StreamingConfig) : FrameAlignmentBuffer Value :=
  withCompletionCriteria config (.ofConfig config)

/-- Position of the frame for this timestamp, inserted first if it is missing. -/
def findOrCreateFrame (buffer : FrameAlignmentBuffer Value) (timestamp : Nat) :
    FrameAlignmentBuffer Value × Nat :=
  match BinarySearch.search timestamp PartialFrame.timestamp buffer.activeFrames with
  | .ok idx => (buffer, idx)
  | .error idx =>
    let eligible := saturatingAdd timestamp buffer.config.completionWindowNs
    let frame := PartialFrame.new buffer.nextFrameIndex timestamp eligible
    ({ buffer with
        nextFrameIndex := saturatingAdd buffer.nextFrameIndex 1
        activeFrames := buffer.activeFrames.insertIdx idx frame }, idx)

end FrameAlignmentBuffer

/-- `align_to_frame_boundary`: round to the nearest multiple of the interval. -/
def StreamingConfig.alignToFrameBoundary (config : StreamingConfig) (timestamp : Nat) : Nat :=
  let interval := config.frameIntervalNs
  let halfInterval := saturatingAdd interval 1 / 2
  saturatingAdd timestamp halfInterval / interval * interval

/-- Number the frame by what this call returned so far, and count it. -/
def emit (criteria : FrameCompletionCriteria) (sent : AlignmentStats × List (AlignedFrame Value))
    (entry : PartialFrame Value) : AlignmentStats × List (AlignedFrame Value) :=
  let stats := if criteria.isComplete entry.receivedFeatures then sent.1.recordNormalCompletion
    else sent.1.recordForceCompletion
  (stats, sent.2 ++ [{ entry.frame with frameIndex := sent.2.length }])

/-- One pass of the removal loop. `Vec::remove` panics outside the vector; the
positions it is given come from the vector itself. -/
def removeAt (criteria : FrameCompletionCriteria)
    (sent : List (PartialFrame Value) × AlignmentStats × List (AlignedFrame Value)) (idx : Nat) :
    List (PartialFrame Value) × AlignmentStats × List (AlignedFrame Value) :=
  match sent.1[idx]? with
  | none => sent
  | some entry => (sent.1.eraseIdx idx, emit criteria sent.2 entry)

namespace FrameAlignmentBuffer

/-- By its data or by the time window. -/
def isDone (buffer : FrameAlignmentBuffer Value) (entry : PartialFrame Value) : Bool :=
  buffer.completionCriteria.isComplete entry.receivedFeatures ||
    decide (entry.eligibleTimestamp ≤ buffer.currentTimestamp)

def checkCompletions (buffer : FrameAlignmentBuffer Value) :
    FrameAlignmentBuffer Value × List (AlignedFrame Value) :=
  let toRemove := (buffer.activeFrames.zipIdx.filter fun entry => buffer.isDone entry.1).map Prod.snd
  let (frames, stats, completed) :=
    toRemove.reverse.foldl (removeAt buffer.completionCriteria) (buffer.activeFrames, buffer.stats, [])
  ({ buffer with activeFrames := frames, stats := stats.updatePeakBuffer frames.length }, completed)

def processMessage (extraction : Extraction Message Value) (buffer : FrameAlignmentBuffer Value)
    (message : TimestampedMessage Message) (feature : String) :
    FrameAlignmentBuffer Value × List (AlignedFrame Value) :=
  let buffer := { buffer with currentTimestamp := message.logTime }
  let alignedTs := buffer.config.alignToFrameBoundary message.logTime
  let (buffer, idx) := buffer.findOrCreateFrame alignedTs
  let frames := buffer.activeFrames.modify idx (.add extraction message feature)
  checkCompletions { buffer with activeFrames := frames }

def flush (buffer : FrameAlignmentBuffer Value) :
    FrameAlignmentBuffer Value × List (AlignedFrame Value) :=
  let (stats, completed) := buffer.activeFrames.foldl (emit buffer.completionCriteria) (buffer.stats, [])
  ({ buffer with activeFrames := [], stats := stats }, completed)

end FrameAlignmentBuffer

/-- Calls of `process_message`, each answering with the frames it completed. -/
def alignment (extraction : Extraction Message Value) :
    Machine (FrameAlignmentBuffer Value) (TimestampedMessage Message × String)
      (List (AlignedFrame Value)) where
  step buffer call := some (buffer.processMessage extraction call.1 call.2)

/-- All frames returned so far, oldest first. -/
def returned (history : History σ α (List (AlignedFrame Value))) : List (AlignedFrame Value) :=
  history.reverse.flatMap fun e => e.out

end Roboflow.Alignment
