import Roboflow.Library.Machine

/-! The streaming mode of `VideoEncoder`, `video/encoder.rs`: frames go to a codec, its packets to a muxer,
and what the muxer writes is cut into chunks for a channel. What FFmpeg answers comes with the actions. The
receiver of the channel may go away at any time, and then every further chunk is dropped. -/
namespace Roboflow.Media.StreamingEncoder
open Library

abbrev Chunk := List UInt8

/-! ### Chunks -/

/-- `while buffer.len() >= chunk_size`: what so many turns cut off, and what is left if they are enough. -/
def cutChunks (chunkSize : Nat) : Nat → Chunk → Option (List Chunk × Chunk)
  | 0, _ => none
  | turns + 1, buffer =>
    if chunkSize ≤ buffer.length then
      (cutChunks chunkSize turns (buffer.drop chunkSize)).map fun cut =>
        (buffer.take chunkSize :: cut.1, cut.2)
    else some ([], buffer)

/-- The channel: what was sent while the receiver was there, and what was dropped afterwards. -/
structure Channel where
  delivered : List Chunk
  dropped : List Chunk
  connected : Bool

def Channel.send (channel : Channel) (chunk : Chunk) : Channel :=
  if channel.connected then { channel with delivered := channel.delivered ++ [chunk] }
  else { channel with dropped := channel.dropped ++ [chunk] }

def Channel.chunks (channel : Channel) : List Chunk := channel.delivered ++ channel.dropped

structure AvioWriteState where
  buffer : Chunk
  bytesWritten : Nat

namespace AvioWriteState

/-- `write`; with chunks of no size it does not return. -/
def write (chunkSize : Nat) (avio : AvioWriteState) (channel : Channel) (data : Chunk) :
    Option (AvioWriteState × Channel) :=
  let filled := avio.buffer ++ data
  (cutChunks chunkSize (filled.length + 1) filled).map fun cut =>
    (⟨cut.2, avio.bytesWritten + data.length⟩, cut.1.foldl Channel.send channel)

def flush (avio : AvioWriteState) (channel : Channel) : AvioWriteState × Channel :=
  if avio.buffer = [] then (avio, channel) else ({ avio with buffer := [] }, channel.send avio.buffer)

end AvioWriteState

/-! ### The encoder -/

/-- The fields of `VideoEncoder` for channel output; of FFmpeg's contexts, whether they are there. -/
structure VideoEncoder where
  width : UInt32
  height : UInt32
  codecContext : Bool
  formatContext : Bool
  avioState : Option AvioWriteState
  frameCount : Nat
  bytesWritten : Nat
  finalized : Bool

/-- `VideoEncoder::new`. -/
def VideoEncoder.new : VideoEncoder := ⟨0, 0, false, false, none, 0, 0, false⟩

/-- `VideoEncoder::with_dimensions`. -/
def VideoEncoder.withDimensions (width height : UInt32) : VideoEncoder :=
  { VideoEncoder.new with width := width, height := height }

/-- An encoder with its channel, the frames that the codec has taken under their timestamps, and the bytes that
the muxer has written. `owned` until `finalize` has consumed the encoder. -/
structure Streaming where
  encoder : VideoEncoder
  owned : Bool
  channel : Channel
  taken : List (Nat × Chunk)
  muxed : Chunk

def Streaming.initial (encoder : VideoEncoder) : Streaming := ⟨encoder, true, ⟨[], [], true⟩, [], []⟩

/-- What FFmpeg answers while the first frame opens the contexts. -/
structure Opening where
  codecError : Option String
  formatError : Option String
  header : List Chunk
  headerError : Option String

/-- What FFmpeg answers for one frame: the message if its pictures cannot be made, the error of
`send_frame`, the writes of the muxer and the message of the error that ends them. -/
structure FrameAnswers where
  pictureError : Option String
  sendError : Option String
  writes : List Chunk
  packetError : Option String

/-- What FFmpeg answers at the end. -/
structure Ending where
  writes : List Chunk
  packetError : Option String
  trailer : List Chunk
  trailerError : Option String

structure EncodingResult where
  framesEncoded : Nat
  bytesWritten : Nat
  width : UInt32
  height : UInt32

def orError (error : Option String) (text : String) : Except String Unit :=
  match error with
  | none => .ok ()
  | some error => .error (text ++ error)

namespace Streaming
variable (chunkSize : Nat)

/-- The write callback. -/
def writeCallback (s : Streaming) (data : Chunk) : Option Streaming :=
  match s.encoder.avioState with
  | none => some s
  | some avio => (avio.write chunkSize s.channel data).map fun written =>
    { s with
      encoder := { s.encoder with avioState := some written.1 }
      channel := written.2
      muxed := s.muxed ++ data }

/-- The callbacks of one call to the muxer. -/
def writeAll (s : Streaming) (writes : List Chunk) : Option Streaming := writes.foldlM (writeCallback chunkSize) s

/-- `initialize_encoder`. -/
def initializeEncoder (opening : Opening) (s : Streaming) : Option (Streaming × Except String Unit) :=
  match opening.codecError with
  | some error => some (s, .error error)
  | none =>
    let s := { s with encoder := { s.encoder with codecContext := true, avioState := some ⟨[], 0⟩ } }
    match opening.formatError with
    | some error => some (s, .error ("Failed to create format context: " ++ error))
    | none => (s.writeAll chunkSize opening.header).map fun s =>
      match opening.headerError with
      | some error => (s, .error ("Failed to write header: " ++ error))
      | none => ({ s with encoder := { s.encoder with formatContext := true } }, .ok ())

/-- `receive_and_write_packets`. -/
def receiveAndWritePackets (writes : List Chunk) (packetError : Option String) (s : Streaming) :
    Option (Streaming × Except String Unit) :=
  if !s.encoder.codecContext then some (s, .error "Codec context not initialized")
  else if !s.encoder.formatContext then some (s, .error "Format context not initialized")
  else (s.writeAll chunkSize writes).map fun s => (s, orError packetError "")

/-- `encode_frame_streaming`: the frame's timestamp is the number of frames encoded before it. -/
def encodeFrameStreaming (answers : FrameAnswers) (rgb : Chunk) (s : Streaming) :
    Option (Streaming × Except String Unit) :=
  match answers.pictureError with
  | some error => some (s, .error error)
  | none =>
    if !s.encoder.codecContext then some (s, .error "Codec context not initialized")
    else
      match answers.sendError with
      | some error => some (s, .error ("Failed to send frame: " ++ error))
      | none => receiveAndWritePackets chunkSize answers.writes answers.packetError
          { s with taken := s.taken ++ [(s.encoder.frameCount, rgb)] }

/-- `(width as usize) * (height as usize) * 3`. -/
def expectedSize (width height : UInt32) : Nat := width.toNat * height.toNat * 3 % 2 ^ 64

def dimensionText (width height : UInt32) : String := toString width.toNat ++ "x" ++ toString height.toNat

/-- `encode_frame`. The first frame of an encoder without dimensions opens the contexts. -/
def encodeFrame (opening : Opening) (answers : FrameAnswers) (rgb : Chunk) (width height : UInt32)
    (s : Streaming) : Option (Streaming × Except String Unit) :=
  if s.encoder.finalized then some (s, .error "Cannot encode frame after finalization")
  else if width = 0 ∨ height = 0 then some (s, .error "Frame dimensions cannot be zero")
  else if rgb.length ≠ expectedSize width height then
    some (s, .error ("RGB data size mismatch: got " ++ toString rgb.length ++ " bytes, expected " ++
      toString (expectedSize width height) ++ " bytes for " ++ dimensionText width height))
  else
    let opened := if s.encoder.width = 0 then
        initializeEncoder chunkSize opening { s with encoder := { s.encoder with width := width, height := height } }
      else some (s, .ok ())
    opened.bind fun
      | (s, .error error) => some (s, .error error)
      | (s, .ok ()) =>
        if width ≠ s.encoder.width ∨ height ≠ s.encoder.height then
          some (s, .error ("Frame dimension mismatch: expected " ++
            dimensionText s.encoder.width s.encoder.height ++ ", got " ++ dimensionText width height))
        else (encodeFrameStreaming chunkSize answers rgb s).map fun
          | (s, .error error) => (s, .error error)
          | (s, .ok ()) => ({ s with encoder := { s.encoder with frameCount := s.encoder.frameCount + 1 } }, .ok ())

/-- `finalize_streaming`. -/
def finalizeStreaming (ending : Ending) (s : Streaming) : Option (Streaming × Except String Unit) :=
  let drained := if s.encoder.codecContext then
      receiveAndWritePackets chunkSize ending.writes ending.packetError s
    else some (s, .ok ())
  drained.bind fun
    | (s, .error error) => some (s, .error error)
    | (s, .ok ()) =>
      let closed := if s.encoder.formatContext then
          (s.writeAll chunkSize ending.trailer).map fun s =>
            (s, orError ending.trailerError "Failed to write trailer: ")
        else some (s, .ok ())
      closed.map fun
        | (s, .error error) => (s, .error error)
        | (s, .ok ()) =>
          match s.encoder.avioState with
          | none => (s, .ok ())
          | some avio =>
            let flushed := avio.flush s.channel
            ({ s with
              encoder := { s.encoder with avioState := some flushed.1, bytesWritten := flushed.1.bytesWritten }
              channel := flushed.2 }, .ok ())

/-- `finalize`. -/
def finalize (ending : Ending) (s : Streaming) : Option (Streaming × Except String EncodingResult) :=
  let consumed := { s with owned := false }
  if s.encoder.finalized then some (consumed, .error "Encoder already finalized")
  else (finalizeStreaming chunkSize ending
      { consumed with encoder := { s.encoder with finalized := true } }).map fun
    | (s, .error error) => (s, .error error)
    | (s, .ok ()) => (s, .ok ⟨s.encoder.frameCount, s.encoder.bytesWritten, s.encoder.width, s.encoder.height⟩)

end Streaming

inductive EncoderAct where
  | encodeFrame (opening : Opening) (answers : FrameAnswers) (rgb : Chunk) (width height : UInt32)
  | finalize (ending : Ending)
  | disconnect

inductive EncoderOut where
  | encoded (result : Except String Unit)
  | finalized (result : Except String EncodingResult)
  | disconnected

def encoderStep (chunkSize : Nat) (s : Streaming) : EncoderAct → Option (Streaming × EncoderOut)
  | .encodeFrame opening answers rgb width height =>
    if s.owned then
      (s.encodeFrame chunkSize opening answers rgb width height).map fun (s, result) => (s, .encoded result)
    else none
  | .finalize ending =>
    if s.owned then (s.finalize chunkSize ending).map fun (s, result) => (s, .finalized result) else none
  | .disconnect => some ({ s with channel := { s.channel with connected := false } }, .disconnected)

def videoEncoder (chunkSize : Nat) : Machine Streaming EncoderAct EncoderOut := ⟨encoderStep chunkSize⟩

variable {chunkSize : Nat} {s s' : Streaming}

/-! ### Cutting -/

/-- Without a size the loop never ends. -/
theorem cutChunks_zero (turns : Nat) (buffer : Chunk) : cutChunks 0 turns buffer = none := by
  induction turns generalizing buffer with
  | zero => rfl
  | succ turns ih => rw [cutChunks, if_pos (Nat.zero_le _), ih, Option.map_none]

theorem write_zero (avio : AvioWriteState) (channel : Channel) (data : Chunk) :
    avio.write 0 channel data = none := by
  rw [AvioWriteState.write, cutChunks_zero, Option.map_none]

/-- Chunks are dropped only after the receiver has gone. -/
def Channel.InOrder (channel : Channel) : Prop := channel.connected = true → channel.dropped = []

/-- What was written and not sent. -/
def Streaming.pending (s : Streaming) : Chunk := (s.encoder.avioState.map (·.buffer)).getD []

/-- What the muxer has written is in the chunks and in the buffer, and is counted; no chunk is larger than
the size, and none is smaller before the end. -/
structure Streams (chunkSize : Nat) (s : Streaming) : Prop where
  bytes : s.channel.chunks.flatten ++ s.pending = s.muxed
  counted : (s.encoder.avioState.map (·.bytesWritten)).getD 0 = s.muxed.length
  sizes : ∀ chunk ∈ s.channel.chunks, chunk.length = chunkSize
  short : s.pending.length < chunkSize
  ordered : s.channel.InOrder

/-- The muxer's writes change the state of the callback and nothing else of the encoder. -/
structure Writes (s s' : Streaming) : Prop where
  encoder : s'.encoder = { s.encoder with avioState := s'.encoder.avioState }
  owned : s'.owned = s.owned
  taken : s'.taken = s.taken

theorem Writes.refl (s : Streaming) : Writes s s := ⟨rfl, rfl, rfl⟩

theorem Writes.trans {t : Streaming} (first : Writes s s') (second : Writes s' t) : Writes s t := by
  refine ⟨?_, second.owned.trans first.owned, second.taken.trans first.taken⟩
  rw [second.encoder, first.encoder]

/-- Everything but FFmpeg's contexts, the channel and the bytes is as it was. -/
structure Stays (s s' : Streaming) : Prop where
  width : s'.encoder.width = s.encoder.width
  height : s'.encoder.height = s.encoder.height
  frameCount : s'.encoder.frameCount = s.encoder.frameCount
  finalized : s'.encoder.finalized = s.encoder.finalized
  owned : s'.owned = s.owned
  taken : s'.taken = s.taken
  bytesWritten : s'.encoder.bytesWritten = s.encoder.bytesWritten

theorem Stays.refl (s : Streaming) : Stays s s := ⟨rfl, rfl, rfl, rfl, rfl, rfl, rfl⟩

theorem Stays.trans {t : Streaming} (first : Stays s s') (second : Stays s' t) : Stays s t :=
  ⟨second.width.trans first.width, second.height.trans first.height, second.frameCount.trans first.frameCount,
    second.finalized.trans first.finalized, second.owned.trans first.owned, second.taken.trans first.taken,
    second.bytesWritten.trans first.bytesWritten⟩

theorem Writes.stays (writes : Writes s s') : Stays s s' := by
  obtain ⟨encoder, owned, taken⟩ := writes
  exact ⟨by rw [encoder], by rw [encoder], by rw [encoder], by rw [encoder], owned, taken, by rw [encoder]⟩

/-- The frame of a call that succeeds is taken with the number of frames before it; the frame of a call
that fails may have been. -/
structure Encodes (s s' : Streaming) (rgb : Chunk) (result : Except String Unit) : Prop where
  succeeded : result = .ok () → s'.encoder.frameCount = s.encoder.frameCount + 1 ∧
    s'.taken = s.taken ++ [(s.encoder.frameCount, rgb)]
  failed : ∀ error, result = .error error → s'.encoder.frameCount = s.encoder.frameCount ∧
    (s'.taken = s.taken ∨ s'.taken = s.taken ++ [(s.encoder.frameCount, rgb)])
  finalized : s'.encoder.finalized = s.encoder.finalized
  owned : s'.owned = s.owned
  bytesWritten : s'.encoder.bytesWritten = s.encoder.bytesWritten

/-- A frame that was refused before the codec saw it. -/
theorem Stays.refuses (stays : Stays s s') (rgb : Chunk) (error : String) : Encodes s s' rgb (.error error) :=
  ⟨by simp, fun _ _ => ⟨stays.frameCount, .inl stays.taken⟩, stays.finalized, stays.owned, stays.bytesWritten⟩

/-- An encoder without dimensions has no contexts. -/
def Unopened (s : Streaming) : Prop := s.encoder.width = 0 → s.encoder.avioState = none

/-- Everything the muxer wrote was sent: chunks of the size, and a last one that may be smaller. -/
structure Complete (chunkSize : Nat) (s : Streaming) : Prop where
  whole : s.channel.chunks.flatten = s.muxed
  sizes : ∀ chunk ∈ s.channel.chunks.dropLast, chunk.length = chunkSize
  last : ∀ chunk ∈ s.channel.chunks, 0 < chunk.length ∧ chunk.length ≤ chunkSize

/-- The frames that were reported encoded. -/
def okFrames (history : History Streaming EncoderAct EncoderOut) : Nat :=
  history.countP fun e => match e.out with
    | .encoded (.ok ()) => true
    | _ => false

/-- What the codec has taken: every frame whose call succeeded, under the number of such frames before it, and
perhaps a frame whose call failed, under the same timestamp as the next one. -/
inductive Takes : History Streaming EncoderAct EncoderOut → List (Nat × Chunk) → Prop where
  | nothing : Takes [] []
  | succeeded {taken : List (Nat × Chunk)} (before : Takes older taken)
      (act : e.act = .encodeFrame opening answers rgb width height) (out : e.out = .encoded (.ok ())) :
      Takes (e :: older) (taken ++ [(okFrames older, rgb)])
  | refused {taken : List (Nat × Chunk)} (before : Takes older taken) (out : e.out = .encoded (.error error)) :
      Takes (e :: older) taken
  | broken {taken : List (Nat × Chunk)} (before : Takes older taken)
      (act : e.act = .encodeFrame opening answers rgb width height) (out : e.out = .encoded (.error error)) :
      Takes (e :: older) (taken ++ [(okFrames older, rgb)])
  | other {taken : List (Nat × Chunk)} (before : Takes older taken) (out : ∀ result, e.out ≠ .encoded result) :
      Takes (e :: older) taken

/-- What holds after any calls. -/
structure Kept (chunkSize : Nat) (history : History Streaming EncoderAct EncoderOut) (s : Streaming) : Prop where
  owned : s.owned = true → Unopened s ∧ Streams chunkSize s ∧ s.encoder.bytesWritten = 0
  either : Streams chunkSize s ∨ Complete chunkSize s ∧ s.channel.InOrder
  frames : s.encoder.frameCount = okFrames history
  takes : Takes history s.taken
  abandoned : ∀ e ∈ history, ∀ error, e.out = .finalized (.error error) → s.owned = false ∧ Streams chunkSize s
  told : ∀ e ∈ history, ∀ report, e.out = .finalized (.ok report) → s.owned = false ∧
    report.framesEncoded = s.encoder.frameCount ∧ report.bytesWritten = s.muxed.length ∧ Complete chunkSize s

/-- As long as the encoder is there, nothing was finalized. -/
theorem Kept.running (kept : Kept chunkSize history s) (owned : s.owned = true) :
    ∀ e ∈ history, ∀ result, e.out ≠ .finalized result := by
  intro e member result same
  cases result with
  | ok report =>
    rw [(kept.told e member report same).1] at owned
    cases owned
  | error error =>
    rw [(kept.abandoned e member error same).1] at owned
    cases owned

/-- An encoder with dimensions but no contexts, which never opens any. -/
structure Idle (width height : UInt32) (s : Streaming) : Prop where
  width : s.encoder.width = width
  height : s.encoder.height = height
  codecContext : s.encoder.codecContext = false
  formatContext : s.encoder.formatContext = false
  avioState : s.encoder.avioState = none
  unfinished : s.owned = true → s.encoder.finalized = false
  frameCount : s.encoder.frameCount = 0
  bytesWritten : s.encoder.bytesWritten = 0
  taken : s.taken = []
  muxed : s.muxed = []
  chunks : s.channel.chunks = []

theorem encodeFrame_idle {width height : UInt32} (sized : width ≠ 0) (idle : Idle width height s)
    (moved : s.encodeFrame chunkSize opening answers rgb w h = some (s', result)) :
    s' = s ∧ ∃ error, result = .error error := by
  unfold Streaming.encodeFrame at moved
  split at moved
  · cases moved
    exact ⟨rfl, _, rfl⟩
  split at moved
  · cases moved
    exact ⟨rfl, _, rfl⟩
  split at moved
  · cases moved
    exact ⟨rfl, _, rfl⟩
  rw [if_neg (idle.width ▸ sized), Option.bind_some] at moved
  dsimp only at moved
  split at moved
  · cases moved
    exact ⟨rfl, _, rfl⟩
  · obtain ⟨⟨after, encoded⟩, streamed, same⟩ := Option.map_eq_some_iff.mp moved
    unfold Streaming.encodeFrameStreaming at streamed
    rw [idle.codecContext] at streamed
    split at streamed
    · cases streamed
      cases same
      exact ⟨rfl, _, rfl⟩
    · cases streamed
      cases same
      exact ⟨rfl, _, rfl⟩

theorem finalize_idle {width height : UInt32} (idle : Idle width height s) (owned : s.owned = true)
    (ending : Ending) : ∃ s', s.finalize chunkSize ending = some (s', .ok ⟨0, 0, width, height⟩) ∧
      Idle width height s' := by
  obtain ⟨width', height', codec, format, avio, unfinished, frames, bytes, taken, muxed, chunks⟩ := idle
  have ended : s.finalize chunkSize ending = some (⟨{ s.encoder with finalized := true }, false, s.channel, s.taken,
      s.muxed⟩, .ok ⟨s.encoder.frameCount, s.encoder.bytesWritten, s.encoder.width, s.encoder.height⟩) := by
    simp [Streaming.finalize, Streaming.finalizeStreaming, unfinished owned, codec, format, avio]
  refine ⟨_, by rw [ended, frames, bytes, width', height'], ?_⟩
  exact ⟨width', height', codec, format, avio, nofun, frames, bytes, taken, muxed, chunks⟩

/-- An encoder made with dimensions does not take its first frame for the first, opens nothing, and refuses
every frame; `finalize` succeeds whenever it is called, and reports an empty video. -/
theorem sized_encoder_streams_nothing {width height : UInt32} (sized : width ≠ 0)
    (run : Run (videoEncoder chunkSize) (.initial (.withDimensions width height)) history s) :
    Idle width height s ∧ (∀ e ∈ history, ∀ result, e.out = .encoded result → ∃ error, result = .error error) ∧
      (∀ e ∈ history, ∀ result, e.out = .finalized result → result = .ok ⟨0, 0, width, height⟩) ∧
      (s.owned = true → ∀ ending, ∃ after,
        encoderStep chunkSize s (.finalize ending) = some (after, .finalized (.ok ⟨0, 0, width, height⟩))) := by
  have kept : Idle width height s ∧
      (∀ e ∈ history, ∀ result, e.out = .encoded result → ∃ error, result = .error error) ∧
      ∀ e ∈ history, ∀ result, e.out = .finalized result → result = .ok ⟨0, 0, width, height⟩ := by
    refine run.history_invariant (P := fun history s => Idle width height s ∧
      (∀ e ∈ history, ∀ result, e.out = .encoded result → ∃ error, result = .error error) ∧
        ∀ e ∈ history, ∀ result, e.out = .finalized result → result = .ok ⟨0, 0, width, height⟩)
      ⟨⟨rfl, rfl, rfl, rfl, rfl, fun _ => rfl, rfl, rfl, rfl, rfl, rfl⟩, by simp, by simp⟩ ?_
    intro older s act s' out _ kept moved
    obtain ⟨idle, refused, reported⟩ := kept
    simp only [List.forall_mem_cons]
    cases act with
    | encodeFrame opening answers rgb w h =>
      simp only [videoEncoder, encoderStep] at moved
      split at moved
      · obtain ⟨⟨after, result⟩, encoded, same⟩ := Option.map_eq_some_iff.mp moved
        cases same
        obtain ⟨rfl, error, rfl⟩ := encodeFrame_idle sized idle encoded
        refine ⟨idle, ⟨fun result same => ?_, refused⟩, by simp, reported⟩
        cases same
        exact ⟨error, rfl⟩
      · cases moved
    | finalize ending =>
      simp only [videoEncoder, encoderStep] at moved
      split at moved
      · rename_i owned
        obtain ⟨after, ended, idle⟩ := finalize_idle idle owned ending
        rw [ended, Option.map_some] at moved
        cases moved
        refine ⟨idle, ⟨by simp, refused⟩, fun result same => ?_, reported⟩
        cases same
        rfl
      · cases moved
    | disconnect =>
      cases moved
      obtain ⟨width', height', codec, format, avio, unfinished, frames, bytes, taken, muxed, chunks⟩ := idle
      exact ⟨⟨width', height', codec, format, avio, unfinished, frames, bytes, taken, muxed, chunks⟩,
        ⟨by simp, refused⟩, by simp, reported⟩
  refine ⟨kept.1, kept.2.1, kept.2.2, fun owned ending => ?_⟩
  obtain ⟨after, ended, -⟩ := finalize_idle kept.1 owned ending
  exact ⟨after, by rw [encoderStep, if_pos owned, ended, Option.map_some]⟩

theorem sized_encoder_refuses_picture : ∃ history s,
    Run (videoEncoder 2) (.initial (.withDimensions 1 1)) history s ∧ history.length = 2 ∧ Idle 1 1 s ∧
      (∀ e ∈ history, ∀ result, e.out = .encoded result → ∃ error, result = .error error) ∧
      (∀ e ∈ history, ∀ result, e.out = .finalized result → result = .ok ⟨0, 0, 1, 1⟩) ∧
      (s.owned = true → ∀ ending, ∃ after,
        encoderStep 2 s (.finalize ending) = some (after, .finalized (.ok ⟨0, 0, 1, 1⟩))) := by
  obtain ⟨history, s, run, observed⟩ := Run.of_observation (videoEncoder 2) (.initial (.withDimensions 1 1))
    [.encodeFrame ⟨none, none, [[1]], none⟩ ⟨none, none, [[2]], none⟩ [0, 0, 0] 1 1, .finalize ⟨[], none, [], none⟩]
    (fun seen => seen.1.length) 2 rfl
  exact ⟨history, s, run, observed, sized_encoder_streams_nothing (by decide) run⟩

end Roboflow.Media.StreamingEncoder
