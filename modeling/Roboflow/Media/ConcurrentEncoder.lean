import Roboflow.Library.Crew
import Roboflow.Media.AdmissionAgreement

/-! The concurrent video encoder of `video/concurrent.rs`: a thread for each camera, which takes the
images of `add_frame` from a channel of its own until it is told to flush or to abort. What a camera's
thread returns does not depend on how the threads are scheduled. -/
namespace Roboflow.Media
open Library

inductive EncodeCommand where
  | frame (image : ImageData)
  | flush
  | abort

structure ConcurrentEncoderResult where
  camera : String
  outputPath : String
  framesEncoded : Nat
  framesSkipped : Nat

/-- How an encoding thread ends, with the frames of the video file it has written. -/
structure ThreadEnd where
  returned : Except String ConcurrentEncoderResult
  video : Option (List VideoFrame)

/-- The end of `encoding_thread` after its loop: an encoder without frames writes no file. `writes` is
whether a file is written to the end. -/
def EncodingThread.finish (writes : String → List VideoFrame → Bool) (camera outputPath : String)
    (thread : EncodingThread) : ThreadEnd :=
  let result := ⟨camera, outputPath, thread.framesEncoded, thread.framesSkipped⟩
  if thread.frames.isEmpty then ⟨.ok result, none⟩
  else if writes outputPath thread.frames then ⟨.ok result, some thread.frames⟩
  else ⟨.error "Failed to finalize encoder", none⟩

/-- `encoding_thread`. -/
def encodingActor (decoder : Decoder) (opens : UInt32 → UInt32 → Bool)
    (writes : String → List VideoFrame → Bool) (camera outputPath : String) :
    Actor EncodingThread EncodeCommand ThreadEnd where
  start := .ok .new
  step thread
    | .frame image => .ok (thread.frame decoder opens image)
    | .flush => .error (thread.finish writes camera outputPath)
    | .abort => .error ⟨.error ("Camera " ++ camera ++ " encoding aborted"), none⟩
  closed thread := thread.finish writes camera outputPath

abbrev ConcurrentVideoEncoder := Crew String String EncodingThread EncodeCommand ThreadEnd

/-- The steps of the encoder's owner, and `turn` of a camera's thread. `finalize` and `abort` tell the
cameras in the order of a hash map, `joinAll` joins their threads in that of another one. -/
inductive EncoderCall where
  | addCamera (camera outputPath : String)
  | addFrame (camera : String) (image : ImageData)
  | finalize (order : List String)
  | abort (order : List String)
  | tell
  | joinAll (order : List String)
  | join
  | drop
  | turn (camera : String)

def EncoderCall.act : EncoderCall → CrewAct String String EncodeCommand
  | .addCamera camera outputPath => .spawn camera outputPath
  | .addFrame camera image => .send camera (.frame image)
  | .finalize order => .tellAll .flush order true
  | .abort order => .tellAll .abort order false
  | .tell => .tell
  | .joinAll order => .joinAll order
  | .join => .join
  | .drop => .drop
  | .turn camera => .turn camera

def concurrentVideoEncoder (decoder : Decoder) (opens : UInt32 → UInt32 → Bool)
    (writes : String → List VideoFrame → Bool) :
    Machine ConcurrentVideoEncoder EncoderCall CrewOut :=
  (crew (encodingActor decoder opens writes)).via EncoderCall.act

abbrev EncoderHistory := History ConcurrentVideoEncoder EncoderCall CrewOut

/-- What `finalize` returns for a camera: nothing was encoded by a thread that failed. -/
def ThreadEnd.result (ended : ThreadEnd) (camera outputPath : String) : ConcurrentEncoderResult :=
  match ended.returned with
  | .ok result => result
  | .error _ => ⟨camera, outputPath, 0, 0⟩

/-- What `add_frame` sends, and what the threads are told last. -/
def encoderCalls : CrewCalls EncoderCall String String EncodeCommand ImageData where
  act := EncoderCall.act
  item := .frame
  last joins := if joins then .flush else .abort
  request
    | .addFrame camera image => some (camera, image)
    | _ => none
  sends call camera message sent := by
    cases call <;> cases sent
    exact ⟨_, rfl, rfl⟩
  requests call camera image asked := by
    cases call <;> cases asked
    rfl
  tells call last order joins told := by
    cases call <;> cases told <;> rfl

/-! ### What was asked of the encoder -/

/-- The cameras that were registered, with their output paths, oldest first. -/
def registered (history : EncoderHistory) : List (String × String) :=
  started (encoderCalls.crewHistory history)

/-- The images of a registered camera's `add_frame` calls, oldest first. -/
def imagesOf (camera : String) (history : EncoderHistory) : List ImageData :=
  encoderCalls.requested camera history

section
variable {decoder : Decoder} {opens : UInt32 → UInt32 → Bool}
  {writes : String → List VideoFrame → Bool} {camera outputPath : String}

theorem after_frames (images : List ImageData) :
    (encodingActor decoder opens writes camera outputPath).after (images.map .frame) =
      .ok (encodingThread decoder opens images) := by
  induction images using List.reverseRecOn with
  | nil => rfl
  | append_singleton images image ih =>
    rw [List.map_append, List.map_singleton, Actor.after_concat_ok ih, encodingThread,
      encodingThread, List.foldl_append]
    rfl

theorem result_aborted (images : List ImageData) :
    ((encodingActor decoder opens writes camera outputPath).result
      (images.map .frame ++ [.abort])).video = none := by
  rw [Actor.result_of_error (Actor.after_concat_ok (after_frames images))]

end

/-! ### All threads -/

/-- A decoder that decodes nothing; raw images need none. -/
def rawOnly : Decoder := ⟨fun _ => none, fun _ _ given => by cases given⟩

def onePixel : ImageData := ⟨1, 1, [7, 8, 9], false⟩

/-- However far the threads have come when they are told to abort: none of them writes a video then,
nor has written one before. -/
theorem aborted_videos (decoder : Decoder) (opens : UInt32 → UInt32 → Bool)
    (writes : String → List VideoFrame → Bool) (history : EncoderHistory) (s : ConcurrentVideoEncoder)
    (run : Run (concurrentVideoEncoder decoder opens writes) .new history s)
    (last : EncodeCommand) (aborted : s.phase = .dropped (some last))
    (camera : String) (member : Member String EncodingThread EncodeCommand ThreadEnd)
    (found : s.members camera = some member) (ended : ThreadEnd)
    (finished : member.progress = .ended ended) : ended.video = none := by
  have result := encoderCalls.dropped run aborted found finished
  rw [result]
  exact result_aborted (imagesOf camera history)

/-- Aborted with an image in the mailbox. -/
theorem one_camera_aborted : ∃ (s : ConcurrentVideoEncoder) (ended : ThreadEnd),
    s.phase = .dropped (some .abort) ∧
      (s.members "left").map Member.progress = some (.ended ended) ∧ ended.video = none := by
  obtain ⟨history, s, run, seen⟩ := Run.of_observation
    (concurrentVideoEncoder rawOnly (fun _ _ => true) fun _ _ => true) .new
    [.addCamera "left" "left.mp4", .addFrame "left" onePixel, .turn "left", .abort ["left"], .tell,
      .drop, .turn "left", .turn "left"]
    (fun reached => (reached.2.phase, reached.2.members "left"))
    (.dropped (some .abort),
      some ⟨"left.mp4", .ended ⟨.error "Camera left encoding aborted", none⟩, []⟩) rfl
  obtain ⟨aborted, found⟩ := Prod.mk.inj seen
  refine ⟨s, _, aborted, congrArg (Option.map Member.progress) found, ?_⟩
  exact aborted_videos rawOnly (fun _ _ => true) (fun _ _ => true) history s run _ aborted "left" _
    found _ rfl

end Roboflow.Media
