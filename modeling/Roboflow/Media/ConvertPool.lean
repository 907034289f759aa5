import Roboflow.Media.Frames
import Roboflow.Media.YuvAgreement

/-! The color conversion of the pipeline, `video/convert.rs`: the two converters and the loop of a
worker. A conversion has no result where a kernel has none, and where its planes cannot be
allocated: those of a frame whose size is no `usize`. -/
namespace Roboflow.Media

/-! ### The entry points on frames of any dimensions -/

section
variable (arch : TargetArch) (strategy : ConversionStrategy)

/-- The checks of a size that is no `usize`, after the one of the data, and the planes that cannot
be allocated then. -/
def oversized {α : Type} (format : Format) (width height : Nat) (refused : Option String) :
    Option (Except String α) :=
  match refused.or (dimensionError format width height) with
  | some message => some (.error message)
  | none => none

/-- `rgb_to_yuv420p` and `rgb_to_nv12`. -/
def planesOf (format : Format) (rgb : List UInt8) (width height : Nat) :
    Option (Except String Planes) :=
  let size := width * height * 3
  if size < 2 ^ 64 then convert format arch strategy rgb width height
  else
    let expectedSize := size % 2 ^ 64
    oversized format width height <|
      if rgb.length ≠ expectedSize then
        some s!"RGB data size mismatch: expected {expectedSize} bytes, got {rgb.length}"
      else none

/-- `rgb_to_nv12_in_place`. -/
def planesInPlace (buffer : List UInt8) (width height : Nat) :
    Option (Except String (Nat × List UInt8)) :=
  let size := width * height * 3
  if size < 2 ^ 64 then rgbToNv12InPlace arch strategy buffer width height
  else
    let rgbSize := size % 2 ^ 64
    oversized .nv12 width height <|
      if buffer.length < rgbSize then
        some s!"Buffer too small: expected at least {rgbSize} bytes, got {buffer.length}"
      else none

/-- `rgb_batch_to_nv12`. -/
def planesOfBatch (frames : List (List UInt8)) (width height : Nat) :
    Option (Except String (List Planes)) :=
  let size := width * height * 3
  if size < 2 ^ 64 ∨ frames = [] then batch .nv12 arch strategy frames width height
  else
    let expectedSize := size % 2 ^ 64
    oversized .nv12 width height <|
      (frames.zipIdx.find? fun frame => frame.1.length ≠ expectedSize).map fun (rgb, i) =>
        s!"Frame {i} size mismatch: expected {expectedSize} bytes, got {rgb.length}"

end

/-! ### The converters -/

/-- A decoded frame, and whether its buffer has another owner when it is converted. -/
structure DecodedFrame where
  buffer : FrameBuffer
  shared : Bool

inductive FrameData where
  | nv12 (yPlane uvPlane : List UInt8)
  | yuv420p (yPlane uPlane vPlane : List UInt8)

structure ConvertedFrame where
  width : UInt32
  height : UInt32
  format : FrameFormat
  data : FrameData

inductive ConvertedFrameZeroCopy where
  | inPlace (buffer : FrameBuffer)
  | owned (frame : ConvertedFrame) (width height : UInt32)

def ConvertedFrame.toVideoFrame (frame : ConvertedFrame) : VideoFrame :=
  match frame.data with
  | .nv12 yPlane uvPlane => .fromNv12 frame.width frame.height yPlane uvPlane
  | .yuv420p yPlane uPlane vPlane => .fromYuv420p frame.width frame.height yPlane uPlane vPlane

def ConvertedFrameZeroCopy.toVideoFrame : ConvertedFrameZeroCopy → VideoFrame
  | .inPlace buffer => .fromArcFrameBuffer buffer
  | .owned frame _ _ => frame.toVideoFrame

/-- What was written through `data_mut`. -/
def FrameBuffer.overwrite (buffer : FrameBuffer) (written : List UInt8) : FrameBuffer :=
  let storage := fun bytes : List UInt8 => written ++ bytes.drop written.length
  match buffer.inner with
  | .arena slot => { buffer with inner := .arena (storage slot) }
  | .owned data => { buffer with inner := .owned (storage data) }

inductive TargetFormat where
  | nv12
  | yuv420p
  deriving DecidableEq

section
variable (arch : TargetArch) (strategy : ConversionStrategy)

/-- `convert` of both converters. -/
def TargetFormat.convert (target : TargetFormat) (frame : DecodedFrame) :
    Option (Except String ConvertedFrame) :=
  let width := frame.buffer.width
  let height := frame.buffer.height
  match target with
  | .nv12 =>
    (planesOf arch strategy .nv12 frame.buffer.data width.toNat height.toNat).map fun result =>
      result.map fun planes => ⟨width, height, .nv12, .nv12 (planes .y) (planes .uv)⟩
  | .yuv420p =>
    (planesOf arch strategy .yuv420p frame.buffer.data width.toNat height.toNat).map fun result =>
      result.map fun planes =>
        ⟨width, height, .yuv420p, .yuv420p (planes .y) (planes .u) (planes .v)⟩

/-- `convert_zero_copy` of both converters. Only the one to NV12 has a way to convert in place. -/
def TargetFormat.convertZeroCopy (target : TargetFormat) (frame : DecodedFrame) :
    Option (Except String ConvertedFrameZeroCopy) :=
  let buffer := frame.buffer
  let width := buffer.width
  let height := buffer.height
  match target with
  | .nv12 =>
    if buffer.format = .rgb24 ∧ !frame.shared then
      (planesInPlace arch strategy buffer.data width.toNat height.toNat).map fun result =>
        result.map fun (newLen, written) =>
          .inPlace (((buffer.overwrite written).setFormat .nv12).setLen newLen)
    else
      (planesOf arch strategy .nv12 buffer.data width.toNat height.toNat).map fun result =>
        result.map fun planes =>
          .inPlace (.fromOwned (planes .y ++ planes .uv) .nv12 width height)
  | .yuv420p =>
    (planesOf arch strategy .yuv420p buffer.data width.toNat height.toNat).map fun result =>
      result.map fun planes =>
        .inPlace (.fromOwned (planes .y ++ planes .u ++ planes .v) .yuv420p width height)

/-! ### A worker -/

/-- One frame, as a command of it is converted. -/
def TargetFormat.convertOne (target : TargetFormat) (zeroCopy : Bool) (frame : DecodedFrame) :
    Option (Except String ConvertedFrameZeroCopy) :=
  if zeroCopy then target.convertZeroCopy arch strategy frame
  else
    (target.convert arch strategy frame).map fun result =>
      result.map fun converted => .owned converted frame.buffer.width frame.buffer.height

/-- The frames one after the other, up to the first that fails. -/
def TargetFormat.convertEach (target : TargetFormat) (zeroCopy : Bool) :
    List DecodedFrame → Option (Except String (List ConvertedFrameZeroCopy))
  | [] => some (.ok [])
  | frame :: frames =>
    match target.convertOne arch strategy zeroCopy frame with
    | none => none
    | some (.error _) => some (.error "Frame conversion failed")
    | some (.ok converted) =>
      (target.convertEach zeroCopy frames).map fun result =>
        result.map fun others => converted :: others

/-- The result of a command, as `convert_worker_loop` sends it. -/
def TargetFormat.convertFrames (target : TargetFormat) (zeroCopy : Bool)
    (frames : List DecodedFrame) : Option (Except String (List ConvertedFrameZeroCopy)) :=
  match frames with
  | first :: _ :: _ =>
    let width := first.buffer.width
    let height := first.buffer.height
    if zeroCopy ∧ target = .nv12 ∧
        frames.all fun f => f.buffer.width = width ∧ f.buffer.height = height then
      match planesOfBatch arch strategy (frames.map (·.buffer.data)) width.toNat height.toNat with
      | none => none
      | some (.ok results) => some (.ok ((results.zip frames).map fun (planes, _) =>
          .inPlace (.fromOwned (planes .y ++ planes .uv) .nv12 width height)))
      | some (.error _) => target.convertEach arch strategy zeroCopy frames
    else target.convertEach arch strategy zeroCopy frames
  | _ => target.convertEach arch strategy zeroCopy frames

end

end Roboflow.Media
