import Roboflow.Alignment.Buffer
import Roboflow.Library.KeyedBuffers

/-! The LeRobot dataset writer, `formats/lerobot/writer/writer_impl.rs` with the parquet
rows, the metadata collector and the trait calls around it. File system and encoder
calls succeed: the encoder writes the frames it is given to a file and the composer
joins such files. The image decoder is not part of the repository and is a parameter.
Seconds are kept as the nanoseconds they are computed from, and what is found first in
a hash map is what is first in key order. Files are kept under texts, with a camera's name
as it is: where the source joins the name as a path, these are the files of names that are
directories of their own. -/
namespace Roboflow.Lerobot
open Library
open Roboflow.Alignment (AlignedFrame ImageData)

/-! ### File names -/

/-- The decimal digits, filled with zeros to a width. -/
def padded (width n : Nat) : String := String.ofList ((Nat.toDigits 10 n).leftpad width '0')

def chunkDirName (chunk : Nat) : String := "chunk-" ++ padded 3 chunk

def parquetPath (chunk episode : Nat) : String :=
  "data/" ++ chunkDirName chunk ++ "/episode_" ++ padded 6 episode ++ ".parquet"

def videoPath (chunk : Nat) (camera : String) (episode : Nat) : String :=
  "videos/" ++ chunkDirName chunk ++ "/" ++ camera ++ "/episode_" ++ padded 6 episode ++ ".mp4"

/-- Relative to the session's directory under `temp`. -/
def segmentPath (segment : Nat) (camera : String) : String :=
  "segment_" ++ padded 4 segment ++ "/" ++ camera ++ "/segment.mp4"

/-! ### Rows -/

structure LerobotFrame (Value : Type) where
  episodeIndex : Nat
  frameIndex : Nat
  index : Nat
  timestamp : Nat
  observationState : Option (List Value)
  action : Option (List Value)
  taskIndex : Option Nat
  imageFrames : Kv String (String × Nat)

def isObservation (name : String) : Bool :=
  decide ("observation".toList <:+: name.toList) || decide ("state".toList <:+: name.toList)

/-- `from_aligned_frame`. The image references name chunk 0 whatever the episode. -/
def LerobotFrame.fromAlignedFrame (frame : AlignedFrame Value) (episodeIndex : Nat) :
    LerobotFrame Value where
  episodeIndex := episodeIndex
  frameIndex := frame.frameIndex
  index := frame.frameIndex
  timestamp := frame.timestamp
  observationState := (frame.states.entries.find? fun entry => isObservation entry.1).map Prod.snd
  action := frame.actions.entries.head?.map Prod.snd
  taskIndex := none
  imageFrames := ⟨frame.images.entries.map fun entry =>
      (entry.1, videoPath 0 entry.1 episodeIndex, frame.timestamp),
    List.pairwise_map.mpr frame.images.sorted⟩

structure ParquetRow (Value : Type) where
  episodeIndex : Nat
  frameIndex : Nat
  index : Nat
  timestamp : Nat
  observationState : List Value
  action : List Value
  taskIndex : Nat
  imageFrames : List (String × String × Nat)

/-- The cameras of the frames, in order of appearance. -/
def cameras (frameData : List (LerobotFrame Value)) : List String :=
  (frameData.flatMap fun frame => frame.imageFrames.entries.map Prod.fst).foldl
    (fun seen camera => if seen.contains camera then seen else seen ++ [camera]) []

/-- The rows of `write_episode_parquet_with_chunk`: a missing state or action is the
last one seen, or zeros. -/
def fillRows [Zero Value] (cameras : List String) (episodeIndex chunk stateDim : Nat) :
    Option (List Value) → Option (List Value) → List (LerobotFrame Value) →
    List (ParquetRow Value)
  | _, _, [] => []
  | lastState, lastAction, frame :: rest =>
    let state := frame.observationState.or lastState
    let action := frame.action.or lastAction
    { episodeIndex := frame.episodeIndex
      frameIndex := frame.frameIndex
      index := frame.index
      timestamp := frame.timestamp
      observationState := state.getD (List.replicate stateDim 0)
      action := action.getD (List.replicate stateDim 0)
      taskIndex := frame.taskIndex.getD 0
      imageFrames := cameras.map fun camera =>
        (camera, (frame.imageFrames.get camera).getD
          (videoPath chunk camera episodeIndex, frame.timestamp)) } ::
      fillRows cameras episodeIndex chunk stateDim state action rest

/-- A column for each dimension: a row's values cut or filled with zeros. -/
def fitted [Zero Value] (dim : Nat) (values : List Value) : List Value :=
  (List.range dim).map fun i => values[i]?.getD 0

/-- The dimension of the action columns. -/
def actionDim (rows : List (ParquetRow Value)) : Nat :=
  ((rows.find? fun row => !row.action.isEmpty).map (·.action.length)).getD 14

/-- `write_episode_parquet_with_chunk`: the rows written, none for no frames. -/
def episodeRows [Zero Value] (frameData : List (LerobotFrame Value)) (episodeIndex chunk : Nat) :
    Except String (List (ParquetRow Value)) :=
  match frameData.findSome? (·.observationState) with
  | none => .error "Cannot determine state dimension: no frame has observation_state"
  | some state =>
    let rows := fillRows (cameras frameData) episodeIndex chunk state.length none none frameData
    .ok (rows.map fun row =>
      { row with
        observationState := fitted state.length row.observationState
        action := fitted (actionDim rows) row.action })

/-! ### Videos -/

/-- A decoded picture. -/
structure VideoFrame where
  width : Nat
  height : Nat
  data : List UInt8
  deriving DecidableEq

/-- `decode_image_to_rgb`. -/
abbrev Decoder := ImageData → Option VideoFrame

/-- An image made ready for the frame buffer, whose `add_frame` validates its size. -/
def prepared (decode : Decoder) (image : ImageData) : Option VideoFrame :=
  if image.width = 0 ∨ image.height = 0 then none
  else
    let frame := if image.isEncoded then decode image
      else some ⟨image.width, image.height, image.data⟩
    frame.filter fun frame => frame.data.length = frame.width * frame.height * 3

/-- `VideoFrameBuffer::add_frame` of a valid frame: all frames have the first one's size. -/
def addVideoFrame (frames : List VideoFrame) (frame : VideoFrame) : List VideoFrame :=
  match frames with
  | [] => [frame]
  | first :: _ =>
    if first.width ≠ frame.width ∨ first.height ≠ frame.height then frames else frames ++ [frame]

/-- `build_frame_buffer_static`, with the number of images it skips. -/
def buildFrameBuffer (decode : Decoder) (images : List ImageData) : List VideoFrame × Nat :=
  let frames := (images.filterMap (prepared decode)).foldl addVideoFrame []
  (frames, images.length - frames.length)

/-! ### The writer -/

structure EpisodeInfo where
  episodeIndex : Nat
  length : Nat
  tasks : List Nat
  deriving DecidableEq

structure MetadataCollector where
  episodes : List EpisodeInfo
  totalFrames : Nat
  deriving DecidableEq

def MetadataCollector.addEpisode (metadata : MetadataCollector) (index length : Nat)
    (tasks : List Nat) : MetadataCollector :=
  ⟨metadata.episodes ++ [⟨index, length, tasks⟩], metadata.totalFrames + length⟩

structure FlushingConfig where
  maxFramesPerChunk : Nat
  maxMemoryBytes : Nat

def FlushingConfig.shouldFlush (flushing : FlushingConfig) (frameCount memoryBytes : Nat) : Bool :=
  (0 < flushing.maxFramesPerChunk && flushing.maxFramesPerChunk ≤ frameCount) ||
    (0 < flushing.maxMemoryBytes && flushing.maxMemoryBytes ≤ memoryBytes)

/-- Of `EpisodeStats`, what is not a default. -/
structure EpisodeStats where
  frames : Nat
  episodeIndex : Nat
  deriving DecidableEq

structure WriterStats where
  framesWritten : Nat
  imagesEncoded : Nat
  stateRecords : Nat
  deriving DecidableEq

/-- A writer with an empty output prefix, and the files it has written: under `data`,
under `videos`, and the segments of its session under `temp`. -/
structure LerobotWriter (Value : Type) where
  flushing : FlushingConfig
  decode : Decoder
  episodeIndex : Nat
  segmentIndex : Nat
  pendingSegments : Kv String (List String)
  episodesPerChunk : ℕ+
  frameData : List (LerobotFrame Value)
  imageBuffers : Kv String (List ImageData)
  metadata : MetadataCollector
  totalFrames : Nat
  imagesEncoded : Nat
  skippedFrames : Nat
  imagesSinceFlush : Nat
  parquetFiles : Kv String (List (ParquetRow Value))
  videoFiles : Kv String (List VideoFrame)
  segmentFiles : Kv String (List VideoFrame)

namespace LerobotWriter

/-- `new_local`, which turns the limit on frames off. -/
def newLocal (flushing : FlushingConfig) (decode : Decoder) : LerobotWriter Value where
  flushing := { flushing with maxFramesPerChunk := 0 }
  decode := decode
  episodeIndex := 0
  segmentIndex := 0
  pendingSegments := .empty
  episodesPerChunk := 500
  frameData := []
  imageBuffers := .empty
  metadata := ⟨[], 0⟩
  totalFrames := 0
  imagesEncoded := 0
  skippedFrames := 0
  imagesSinceFlush := 0
  parquetFiles := .empty
  videoFiles := .empty
  segmentFiles := .empty

def setEpisodeIndex (w : LerobotWriter Value) (index : Nat) : LerobotWriter Value :=
  { w with episodeIndex := index }

def setEpisodesPerChunk (w : LerobotWriter Value) (count : ℕ+) : LerobotWriter Value :=
  { w with episodesPerChunk := count }

/-- The index as a `u32`. -/
def chunkOf (w : LerobotWriter Value) (episode : Nat) : Nat :=
  episode / w.episodesPerChunk % 2 ^ 32

def chunkIndex (w : LerobotWriter Value) : Nat := w.chunkOf w.episodeIndex

/-- `LerobotWriterTrait::start_episode`. -/
def startEpisode (w : LerobotWriter Value) : LerobotWriter Value :=
  { w with episodeIndex := w.frameData.length }

/-- `add_frame` and then `add_image_arc` for each image. -/
def addFrame (w : LerobotWriter Value) (frame : AlignedFrame Value) : LerobotWriter Value :=
  { w with
    frameData := w.frameData ++ [.fromAlignedFrame frame w.episodeIndex]
    imageBuffers := w.imageBuffers.pushAll frame.images.entries
    imagesSinceFlush := w.imagesSinceFlush + frame.images.entries.length }

/-- The cameras whose buffers hold a picture that can be encoded, with the pictures. -/
def encodable (w : LerobotWriter Value) : List (String × List VideoFrame) :=
  w.imageBuffers.entries.filterMap fun entry =>
    let frames := (buildFrameBuffer w.decode entry.2).1
    if frames.isEmpty then none else some (entry.1, frames)

/-- The counters of an encoding pass over the buffers. -/
def counted (w : LerobotWriter Value) : LerobotWriter Value :=
  { w with
    imagesEncoded := w.imagesEncoded + (w.encodable.map fun entry => entry.2.length).sum
    skippedFrames := w.skippedFrames +
      (w.imageBuffers.entries.map fun entry => (buildFrameBuffer w.decode entry.2).2).sum }

def buffersEmpty (w : LerobotWriter Value) : Bool :=
  w.imageBuffers.entries.all fun entry => entry.2.isEmpty

def flushVideoSegment (w : LerobotWriter Value) : LerobotWriter Value :=
  if w.buffersEmpty then w
  else
    let segments := w.encodable.map fun entry => (segmentPath w.segmentIndex entry.1, entry)
    { w.counted with
      segmentFiles := w.segmentFiles.putAll (segments.map fun segment => (segment.1, segment.2.2))
      pendingSegments := w.pendingSegments.pushAll
        (segments.map fun segment => (segment.2.1, segment.1))
      imageBuffers := w.imageBuffers.drained
      imagesSinceFlush := 0
      segmentIndex := w.segmentIndex + 1 }

def estimateMemoryBytes (w : LerobotWriter Value) : Nat :=
  w.frameData.length * 512 +
    (w.imageBuffers.entries.map fun entry => (entry.2.map (·.data.length)).sum).sum

/-- `write_frame` with the decision to flush made. -/
def writeFrameAt (w : LerobotWriter Value) (frame : AlignedFrame Value) (flush : Bool) :
    LerobotWriter Value :=
  let w := w.addFrame frame
  if flush then w.flushVideoSegment else w

/-- The decision on a frame that has been added. -/
def flushes (w : LerobotWriter Value) : Bool :=
  w.flushing.shouldFlush w.imagesSinceFlush w.estimateMemoryBytes

/-- `DatasetWriter::write_frame`. -/
def writeFrame (w : LerobotWriter Value) (frame : AlignedFrame Value) : LerobotWriter Value :=
  w.writeFrameAt frame (w.addFrame frame).flushes

/-- `write_episode_parquet`; a file that exists is overwritten. -/
def writeEpisodeParquet [Zero Value] (w : LerobotWriter Value) :
    Except String (LerobotWriter Value) :=
  if w.frameData.isEmpty then .ok w
  else do
    let rows ← episodeRows w.frameData w.episodeIndex w.chunkIndex
    .ok { w with
      parquetFiles := w.parquetFiles.put (parquetPath w.chunkIndex w.episodeIndex) rows }

/-- `encode_videos`, from what is in the buffers. -/
def encodeVideos (w : LerobotWriter Value) : LerobotWriter Value :=
  { w.counted with
    videoFiles := w.videoFiles.putAll (w.encodable.map fun entry =>
      (videoPath w.chunkIndex entry.1 w.episodeIndex, entry.2)) }

/-- The inherent `finish_episode`. -/
def finishEpisodeWith [Zero Value] (w : LerobotWriter Value) (taskIndex : Option Nat) :
    Except String (LerobotWriter Value) :=
  if w.frameData.isEmpty then .ok w
  else do
    let w ← w.writeEpisodeParquet
    let w := w.encodeVideos
    .ok { w with
      metadata := w.metadata.addEpisode w.episodeIndex w.frameData.length taskIndex.toList
      totalFrames := w.totalFrames + w.frameData.length
      frameData := []
      imageBuffers := w.imageBuffers.drained
      segmentIndex := w.segmentIndex + 1 }

def frameCount (w : LerobotWriter Value) : Nat := w.totalFrames + w.frameData.length

/-- `FormatWriter::finish_episode`. -/
def finishEpisode [Zero Value] (w : LerobotWriter Value) :
    Except String (LerobotWriter Value × EpisodeStats) := do
  let stats : EpisodeStats := ⟨w.frameCount, w.episodeIndex⟩
  let w ← w.finishEpisodeWith (some w.episodeIndex)
  .ok (w, stats)

/-- The joined segments of one camera. -/
def compose (w : LerobotWriter Value) (segments : List String) :
    Except String (List VideoFrame) :=
  segments.foldlM (fun frames segment =>
    match w.segmentFiles.get segment with
    | none => .error ("Failed to copy segment " ++ segment)
    | some part => .ok (frames ++ part)) []

/-- One camera of `merge_pending_segments`. -/
def mergeCamera (w : LerobotWriter Value) (entry : String × List String) :
    Except String (LerobotWriter Value) :=
  if entry.2.isEmpty then .ok w
  else do
    let composed ← w.compose entry.2
    .ok { w with
      videoFiles := w.videoFiles.put (videoPath w.chunkIndex entry.1 w.episodeIndex) composed }

/-- `merge_pending_segments`, which removes the session's directory. -/
def mergePendingSegments (w : LerobotWriter Value) : Except String (LerobotWriter Value) :=
  if w.pendingSegments.entries.isEmpty then .ok w
  else do
    let w ← w.pendingSegments.entries.foldlM mergeCamera w
    .ok { w with segmentFiles := .empty, pendingSegments := .empty }

/-- `DatasetWriter::finalize`. -/
def finalize [Zero Value] (w : LerobotWriter Value) :
    Except String (LerobotWriter Value × WriterStats) := do
  let w := if w.buffersEmpty then w else w.flushVideoSegment
  let w ← if w.frameData.isEmpty then .ok w
    else do
      let w ← w.writeEpisodeParquet
      .ok { w with
        metadata := w.metadata.addEpisode w.episodeIndex w.frameData.length []
        totalFrames := w.totalFrames + w.frameData.length }
  let w ← w.mergePendingSegments
  .ok (w, ⟨w.totalFrames, w.imagesEncoded, w.totalFrames * 2⟩)

end LerobotWriter

end Roboflow.Lerobot
