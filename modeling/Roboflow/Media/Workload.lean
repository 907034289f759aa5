import Roboflow.Library.Crew
import Roboflow.Media.AdmissionAgreement
import Roboflow.Media.FragmentEncoder

/-! The encoding workload of `video/workload/mod.rs`: a thread for each stream, which buffers all frames
(`Standard`) or encodes them in fragments (`Fragment`), and `finalize`, which joins the threads and adds
up what they return. A stream whose thread has ended early refuses frames from some moment on; what
`finalize` returns does not show when. -/
namespace Roboflow.Media.Workload
open Library

structure FrameData where
  rgbData : RgbFrame
  width : UInt32
  height : UInt32

inductive StreamOutput where
  | file (path : String)
  | channel (chunkSize : Nat)

inductive EncodingStrategy where
  | standard
  | fragment (triggers : FragmentConfig)
  | streaming (chunkSize : Nat)

/-- `fps` is that of the resolved encoder configuration. -/
structure StreamConfig where
  output : StreamOutput
  strategy : EncodingStrategy
  fps : Nat

structure StreamResult where
  outputPath : Option String
  framesEncoded : Nat
  framesSkipped : Nat
  bytesWritten : Nat
  fragments : Nat
  success : Bool
  error : Option String
  deriving DecidableEq

namespace StreamResult

def succeeded (outputPath : Option String) (framesEncoded framesSkipped bytesWritten fragments : Nat) :
    StreamResult :=
  ⟨outputPath, framesEncoded, framesSkipped, bytesWritten, fragments, true, none⟩

def failure (error : String) : StreamResult := ⟨none, 0, 0, 0, 0, false, some error⟩

end StreamResult

/-- What the codecs and the file system make of frames. A file that is written has a length. -/
structure Codecs where
  opens : UInt32 → UInt32 → Bool
  writes : String → List VideoFrame → Option Nat
  encodes : List RgbFrame → FragmentEncode
  /-- Moving the only fragment to its place, or composing several. -/
  composes : String → List (List RgbFrame) → Option Nat

/-- The encoder of a stream's thread. -/
inductive StreamEncoder where
  | standard (path : String) (encoder : VideoEncoder)
  | fragment (path : String) (encoder : FragmentEncoder)

structure StreamThread where
  encoder : StreamEncoder
  dimensions : Option (UInt32 × UInt32)
  framesEncoded : Nat
  framesSkipped : Nat

inductive EncoderCommand where
  | frame (data : FrameData)
  | finalize

namespace StreamThread

/-- `encoder_thread` before its loop. Errors of `FragmentEncoder::new` end the thread with an error, the
outputs that are not implemented with a failure. -/
def start (config : StreamConfig) : Except (Except String StreamResult) StreamThread :=
  match config.output, config.strategy with
  | .file path, .standard => .ok ⟨.standard path .new, none, 0, 0⟩
  | .file path, .fragment triggers =>
    match FragmentEncoder.new triggers config.fps with
    | .ok encoder => .ok ⟨.fragment path encoder, none, 0, 0⟩
    | .error message => .error (.error message)
  | .channel _, _ => .error (.ok (.failure "Streaming mode not yet implemented"))
  | .file _, .streaming _ => .error (.ok (.failure "Unsupported output/strategy combination"))

def skip (thread : StreamThread) : StreamThread :=
  { thread with framesSkipped := thread.framesSkipped + 1 }

def encodeFrame (codecs : Codecs) (encoder : StreamEncoder) (data : FrameData) :
    Bool × StreamEncoder :=
  match encoder with
  | .standard path encoder =>
    match encoder.encodeFrame codecs.opens data.rgbData data.width data.height with
    | (.ok _, encoder) => (true, .standard path encoder)
    | (.error _, encoder) => (false, .standard path encoder)
  | .fragment path encoder =>
    match encoder.encodeFrame data.rgbData data.width.toNat data.height.toNat
        (codecs.encodes (encoder.frameBuffer ++ [data.rgbData])) with
    | (.ok _, encoder) => (true, .fragment path encoder)
    | (.error _, encoder) => (false, .fragment path encoder)

/-- One frame of the loop. The first frame sets the dimensions, whether or not it is encoded. -/
def frame (codecs : Codecs) (thread : StreamThread) (data : FrameData) : StreamThread :=
  if thread.dimensions.any (· ≠ (data.width, data.height)) then thread.skip
  else
    let thread := { thread with dimensions := some (data.width, data.height) }
    match encodeFrame codecs thread.encoder data with
    | (true, encoder) => { thread with encoder, framesEncoded := thread.framesEncoded + 1 }
    | (false, encoder) => { thread with encoder }.skip

end StreamThread

/-- `FragmentEncoder::finalize` for a single file: its path, its length and the number of fragments. -/
def finalizeFragments (codecs : Codecs) (path : String) (e : FragmentEncoder) :
    Except String (String × Nat × Nat) :=
  match e.flushFragment (codecs.encodes e.frameBuffer) with
  | (.error message, _) => .error message
  | (.ok _, e) =>
    if e.fragmentPaths = [] then .error "No frames encoded"
    else
      match codecs.composes path e.produced with
      | none => .error "Failed to compose fragments"
      | some bytes => .ok (path, bytes, e.fragmentPaths.length)

/-- The end of `encoder_thread` after its loop. -/
def StreamThread.finish (codecs : Codecs) (thread : StreamThread) : StreamResult :=
  match thread.encoder with
  | .standard path encoder =>
    -- Without frames nothing is written, and the path is returned all the same.
    if encoder.frameBuffer.frames = [] then
      .succeeded (some path) thread.framesEncoded thread.framesSkipped 0 1
    else
      match codecs.writes path encoder.frameBuffer.frames with
      | some bytes => .succeeded (some path) thread.framesEncoded thread.framesSkipped bytes 1
      | none => .failure "Failed to finalize encoder"
  | .fragment path encoder =>
    match finalizeFragments codecs path encoder with
    | .ok (path, bytes, fragments) =>
      .succeeded (some path) thread.framesEncoded thread.framesSkipped bytes fragments
    | .error message => .failure message

/-- `encoder_thread`. -/
def streamActor (codecs : Codecs) (_id : String) (config : StreamConfig) :
    Actor StreamThread EncoderCommand (Except String StreamResult) where
  start := StreamThread.start config
  step thread
    | .frame data => .ok (thread.frame codecs data)
    | .finalize => .error (.ok (thread.finish codecs))
  closed thread := .ok (thread.finish codecs)

/-- The steps of the workload's owner, and `turn` of a stream's thread. `finalize` sends and joins in the
order of a hash map. -/
inductive WorkloadCall where
  | addStream (id : String) (config : StreamConfig)
  | submitFrame (id : String) (data : FrameData)
  | finalize (order : List String)
  | tell
  | joinAll (order : List String)
  | join
  | drop
  | turn (id : String)

def WorkloadCall.act : WorkloadCall → CrewAct String StreamConfig EncoderCommand
  | .addStream id config => .spawn id config
  | .submitFrame id data => .send id (.frame data)
  | .finalize order => .tellAll .finalize order true
  | .tell => .tell
  | .joinAll order => .joinAll order
  | .join => .join
  | .drop => .drop
  | .turn id => .turn id

structure WorkloadResult where
  streams : List (String × StreamResult)
  totalFrames : Nat
  totalSkipped : Nat
  totalBytes : Nat
  allSuccess : Bool

/-- One thread joined. -/
def WorkloadResult.add (total : WorkloadResult) (joined : String × Except String StreamResult) :
    WorkloadResult :=
  match joined.2 with
  | .ok result => {
      streams := total.streams ++ [(joined.1, result)]
      totalFrames := total.totalFrames + result.framesEncoded
      totalSkipped := total.totalSkipped + result.framesSkipped
      totalBytes := total.totalBytes + result.bytesWritten
      allSuccess := total.allSuccess && result.success }
  | .error message => { total with
      streams := total.streams ++ [(joined.1, .failure message)]
      allSuccess := false }

section
variable {codecs : Codecs} {id : String} {config : StreamConfig}

theorem after_frames {thread : StreamThread} (started : StreamThread.start config = .ok thread)
    (frames : List FrameData) :
    (streamActor codecs id config).after (frames.map .frame) =
      .ok (frames.foldl (StreamThread.frame codecs) thread) := by
  induction frames using List.reverseRecOn with
  | nil => exact started
  | append_singleton frames data ih =>
    rw [List.map_append, List.map_singleton, Actor.after_concat_ok ih, List.foldl_append]
    rfl

end

/-! ### All streams -/

def pixelFrame : FrameData := ⟨[7, 8, 9], 1, 1⟩

end Roboflow.Media.Workload
