import Roboflow.Media.Frames

/-! Which images reach a video encoder: the frame buffers of `video/dataset_encode.rs`, the
encoding threads of `video/concurrent.rs` with the encoder of `video/encoder.rs` that
writes to a file, and the workers of the decode pool, `video/decode.rs`. -/
namespace Roboflow.Media

structure ImageData where
  width : UInt32
  height : UInt32
  data : List UInt8
  isEncoded : Bool

structure RgbImage where
  width : UInt32
  height : UInt32
  data : List UInt8

/-- What decodes compressed images, to pictures of their true dimensions. -/
structure Decoder where
  decode : List UInt8 → Option RgbImage
  true_ : ∀ bytes picture, decode bytes = some picture → 0 < picture.width ∧ 0 < picture.height ∧
    picture.data.length = picture.width.toNat * picture.height.toNat * 3

namespace ImageData

def Unsized (image : ImageData) : Prop := image.width = 0 ∨ image.height = 0

instance (image : ImageData) : Decidable image.Unsized := inferInstanceAs (Decidable (_ ∨ _))

/-- `decode_to_rgb`. -/
def decodeToRgb (decoder : Decoder) (image : ImageData) : Option RgbImage :=
  if image.isEncoded then decoder.decode image.data
  else some ⟨image.width, image.height, image.data⟩

end ImageData

def RgbImage.frame (picture : RgbImage) : VideoFrame :=
  .new picture.width picture.height picture.data

/-! ### Frame buffers -/

/-- A frame into the buffer, or counted as skipped. -/
def addOrSkip (state : VideoFrameBuffer × Nat) (picture : RgbImage) : VideoFrameBuffer × Nat :=
  match state.1.addFrame picture.frame with
  | .ok buffer => (buffer, state.2)
  | .error _ => (state.1, state.2 + 1)

/-- What the parallel branch makes of an image by itself. -/
def decodeParallel (decoder : Decoder) (image : ImageData) : Except Unit (Option RgbImage) :=
  if image.Unsized then .ok none
  else if image.isEncoded then
    match decoder.decode image.data with
    | some picture => .ok (some picture)
    | none => .error ()
  else .ok (some ⟨image.width, image.height, image.data⟩)

def collect (state : VideoFrameBuffer × Nat) (result : Except Unit (Option RgbImage)) :
    VideoFrameBuffer × Nat :=
  match result with
  | .ok (some picture) => addOrSkip state picture
  | .ok none => (state.1, state.2 + 1)
  | .error _ => (state.1, state.2 + 1)

/-- The images are decoded in parallel and collected in their order. -/
def buildParallel (decoder : Decoder) (images : List ImageData) : VideoFrameBuffer × Nat :=
  (images.map (decodeParallel decoder)).foldl collect (.new, 0)

def sequentialStep (decoder : Decoder) (state : VideoFrameBuffer × Nat) (image : ImageData) :
    VideoFrameBuffer × Nat :=
  if image.Unsized then (state.1, state.2 + 1)
  else
    let prepared :=
      if image.isEncoded then decoder.decode image.data
      else some ⟨image.width, image.height, image.data⟩
    match prepared with
    | some picture => addOrSkip state picture
    | none => (state.1, state.2 + 1)

def buildSequential (decoder : Decoder) (images : List ImageData) : VideoFrameBuffer × Nat :=
  images.foldl (sequentialStep decoder) (.new, 0)

/-- `build_frame_buffer_static`, with the buffer and the number of images skipped. -/
def buildFrameBufferStatic (decoder : Decoder) (threads : Nat) (images : List ImageData) :
    VideoFrameBuffer × Nat :=
  let encodedCount := (images.filter (·.isEncoded)).length
  if 10 < encodedCount ∧ 1 < threads then buildParallel decoder images
  else buildSequential decoder images

/-! ### Encoding threads -/

/-- A `VideoEncoder` that writes to a file. Frames are only buffered until it is finalized. -/
structure VideoEncoder where
  width : UInt32
  height : UInt32
  frameBuffer : VideoFrameBuffer
  frameCount : Nat

def VideoEncoder.new : VideoEncoder := ⟨0, 0, .new, 0⟩

/-- `encode_frame`; whether a codec opens for given dimensions is `opens`. -/
def VideoEncoder.encodeFrame (opens : UInt32 → UInt32 → Bool) (encoder : VideoEncoder)
    (rgbData : List UInt8) (width height : UInt32) : Except String Unit × VideoEncoder :=
  if width = 0 ∨ height = 0 then (.error "Frame dimensions cannot be zero", encoder)
  else
    let expectedSize := width.toNat * height.toNat * 3 % 2 ^ 64
    if rgbData.length ≠ expectedSize then
      (.error s!"RGB data size mismatch: got {rgbData.length} bytes, expected {expectedSize} bytes for {width}x{height}",
        encoder)
    else
      let fresh := encoder.width = 0
      let encoder := if fresh then { encoder with width, height } else encoder
      if fresh ∧ !opens width height then (.error "Failed to open codec", encoder)
      else if width ≠ encoder.width ∨ height ≠ encoder.height then
        (.error s!"Frame dimension mismatch: expected {encoder.width}x{encoder.height}, got {width}x{height}",
          encoder)
      else
        match encoder.frameBuffer.addFrame (.new encoder.width encoder.height rgbData) with
        | .error _ => (.error "Failed to add frame", encoder)
        | .ok frameBuffer =>
          (.ok (), { encoder with frameBuffer, frameCount := encoder.frameCount + 1 })

structure EncodingThread where
  framesEncoded : Nat
  framesSkipped : Nat
  width : UInt32
  height : UInt32
  encoder : Option VideoEncoder

namespace EncodingThread

def new : EncodingThread := ⟨0, 0, 0, 0, none⟩

def skip (thread : EncodingThread) : EncodingThread :=
  { thread with framesSkipped := thread.framesSkipped + 1 }

/-- The encoder is made with the first frame. -/
def firstFrame (thread : EncodingThread) (picture : RgbImage) : EncodingThread :=
  if thread.width = 0 then
    { thread with width := picture.width, height := picture.height, encoder := some .new }
  else thread

def encode (opens : UInt32 → UInt32 → Bool) (thread : EncodingThread) (picture : RgbImage) :
    EncodingThread :=
  if picture.width ≠ thread.width ∨ picture.height ≠ thread.height then thread.skip
  else
    match thread.encoder with
    | none => thread
    | some encoder =>
      let (result, encoder) :=
        encoder.encodeFrame opens picture.data picture.width picture.height
      let thread := { thread with encoder := some encoder }
      match result with
      | .ok _ => { thread with framesEncoded := thread.framesEncoded + 1 }
      | .error _ => thread.skip

/-- One frame command of `encoding_thread`. -/
def frame (decoder : Decoder) (opens : UInt32 → UInt32 → Bool) (thread : EncodingThread)
    (image : ImageData) : EncodingThread :=
  if !image.isEncoded ∧ image.Unsized then thread.skip
  else
    match image.decodeToRgb decoder with
    | none => thread.skip
    | some picture => (thread.firstFrame picture).encode opens picture

def frames (thread : EncodingThread) : List VideoFrame :=
  match thread.encoder with
  | none => []
  | some encoder => encoder.frameBuffer.frames

end EncodingThread

/-- `encoding_thread` up to the flush. -/
def encodingThread (decoder : Decoder) (opens : UInt32 → UInt32 → Bool) (images : List ImageData) :
    EncodingThread :=
  images.foldl (EncodingThread.frame decoder opens) .new

/-! ### The decode pool -/

/-- The limits of a `DecodePoolConfig`; 0 is none. -/
structure DecodeLimits where
  maxWidth : UInt32
  maxHeight : UInt32
  maxBytes : Nat

/-- The size checks, which the code makes of raw images and once more of decoded ones. -/
def DecodeLimits.check (limits : DecodeLimits) (what : String) (width height : UInt32)
    (bytes : Nat) : Except String Unit :=
  if 0 < limits.maxWidth ∧ limits.maxWidth < width then
    .error s!"{what} width {width} exceeds maximum {limits.maxWidth}"
  else if 0 < limits.maxHeight ∧ limits.maxHeight < height then
    .error s!"{what} height {height} exceeds maximum {limits.maxHeight}"
  else if 0 < limits.maxBytes ∧ limits.maxBytes < bytes then
    .error s!"{what} size {bytes} exceeds maximum {limits.maxBytes} bytes"
  else .ok ()

/-- Into the acquired slot of the arena where there is one that is large enough. -/
def storePicture (slot : Option (List UInt8)) (picture : RgbImage) : FrameBuffer :=
  match slot with
  | none => .rgb24 picture.width picture.height picture.data
  | some slot =>
    if picture.data.length ≤ slot.length then
      .fromArena (picture.data ++ slot.drop picture.data.length) .rgb24 picture.width picture.height
        picture.data.length
    else .rgb24 picture.width picture.height picture.data

/-- `decode_image`. -/
def decodeImage (decoder : Decoder) (limits : DecodeLimits) (slot : Option (List UInt8))
    (image : ImageData) : Except String (Option FrameBuffer) :=
  if image.Unsized then .ok none
  else if image.isEncoded then
    match decoder.decode image.data with
    | none => .error "Failed to decode image"
    | some picture => do
      limits.check "Decoded image" picture.width picture.height picture.data.length
      .ok (some (storePicture slot picture))
  else do
    let expectedSize := min (image.width.toNat * image.height.toNat * 3) (2 ^ 64 - 1)
    limits.check "Image" image.width image.height expectedSize
    .ok (some (storePicture slot ⟨image.width, image.height, image.data⟩))

end Roboflow.Media
