import Roboflow.Media.FramePool

/-! The frames of the video pipeline, `video/frame.rs`: frames to be encoded, the buffers they are
collected in and converted from, and depth frames. `u32` products wrap at 32 bits and
unchecked `usize` products at 64. -/
namespace Roboflow.Media

/-- The errors of `VideoEncoderError` that a check of a frame gives. -/
inductive VideoEncoderError where
  | inconsistentFrameSizes
  | invalidFrameData (message : String)
  deriving DecidableEq

inductive FrameFormat where
  | rgb24
  | nv12
  | yuv420p
  | jpeg
  deriving DecidableEq

inductive PixelFormat where
  | rgb24
  | nv12
  | yuv420p
  | jpeg
  deriving DecidableEq

def PixelFormat.frameFormat : PixelFormat → FrameFormat
  | .rgb24 => .rgb24
  | .nv12 => .nv12
  | .yuv420p => .yuv420p
  | .jpeg => .jpeg

/-- `checked_mul` and `checked_add` give a result that is a `usize`. -/
def checked (n : Nat) : Option Nat := if n < 2 ^ 64 then some n else none

/-- The header check of both `validate`s. -/
def checkJpeg (data : List UInt8) : Except VideoEncoderError Unit :=
  if data.length < 4 then .error (.invalidFrameData "Empty JPEG data")
  else if data[0]? ≠ some 0xFF ∨ data[1]? ≠ some 0xD8 ∨ data[2]? ≠ some 0xFF then
    .error (.invalidFrameData "Invalid JPEG header")
  else .ok ()

/-! ### Frame buffers -/

inductive FrameBufferInner where
  | arena (slot : List UInt8)
  | owned (data : List UInt8)

def FrameBufferInner.bytes : FrameBufferInner → List UInt8
  | .arena slot => slot
  | .owned data => data

structure FrameBuffer where
  inner : FrameBufferInner
  format : PixelFormat
  width : UInt32
  height : UInt32
  /-- The length of the data, which may be less than that of the storage. -/
  len : Nat

namespace FrameBuffer

def fromArena (slot : List UInt8) (format : PixelFormat) (width height : UInt32) (len : Nat) :
    FrameBuffer :=
  ⟨.arena slot, format, width, height, len⟩

def fromOwned (data : List UInt8) (format : PixelFormat) (width height : UInt32) : FrameBuffer :=
  ⟨.owned data, format, width, height, data.length⟩

def rgb24 (width height : UInt32) (data : List UInt8) : FrameBuffer :=
  fromOwned data .rgb24 width height

def nv12 (width height : UInt32) (data : List UInt8) : FrameBuffer :=
  fromOwned data .nv12 width height

def data (buffer : FrameBuffer) : List UInt8 := buffer.inner.bytes.take buffer.len

def capacity (buffer : FrameBuffer) : Nat := buffer.inner.bytes.length

def setFormat (buffer : FrameBuffer) (format : PixelFormat) : FrameBuffer :=
  { buffer with format }

def setLen (buffer : FrameBuffer) (len : Nat) : FrameBuffer :=
  { buffer with len := min len buffer.capacity }

def expectedSize (buffer : FrameBuffer) : Nat :=
  let width := buffer.width.toNat
  let height := buffer.height.toNat
  match buffer.format with
  | .rgb24 => width * height * 3 % 2 ^ 64
  | .nv12 => (width * height + width / 2 * (height / 2) * 2) % 2 ^ 64
  | .yuv420p => (width * height + width / 2 * (height / 2) * 2) % 2 ^ 64
  | .jpeg => buffer.len

def validate (buffer : FrameBuffer) : Except VideoEncoderError Unit :=
  if buffer.len ≠ buffer.expectedSize ∧ buffer.format ≠ .jpeg then
    .error (.invalidFrameData "Invalid frame buffer size")
  else if buffer.format = .jpeg then checkJpeg buffer.data
  else .ok ()

end FrameBuffer

/-! ### Video frames -/

inductive VideoFrameInner where
  | owned (data : List UInt8)
  | shared (buffer : FrameBuffer)

structure VideoFrame where
  width : UInt32
  height : UInt32
  inner : VideoFrameInner
  format : FrameFormat

namespace VideoFrame

def new (width height : UInt32) (data : List UInt8) : VideoFrame :=
  ⟨width, height, .owned data, .rgb24⟩

def fromNv12 (width height : UInt32) (yPlane uvPlane : List UInt8) : VideoFrame :=
  ⟨width, height, .owned (yPlane ++ uvPlane), .nv12⟩

def fromYuv420p (width height : UInt32) (yPlane uPlane vPlane : List UInt8) : VideoFrame :=
  ⟨width, height, .owned (yPlane ++ uPlane ++ vPlane), .yuv420p⟩

def fromJpeg (width height : UInt32) (jpegData : List UInt8) : VideoFrame :=
  ⟨width, height, .owned jpegData, .jpeg⟩

def fromArcFrameBuffer (buffer : FrameBuffer) : VideoFrame :=
  ⟨buffer.width, buffer.height, .shared buffer, buffer.format.frameFormat⟩

def data (frame : VideoFrame) : List UInt8 :=
  match frame.inner with
  | .owned data => data
  | .shared buffer => buffer.data

def expectedSize (frame : VideoFrame) : Nat :=
  let width := frame.width.toNat
  let height := frame.height.toNat
  match frame.format with
  | .rgb24 => (frame.width * frame.height * 3).toNat
  | .nv12 => (width * height + width / 2 * (height / 2) * 2) % 2 ^ 64
  | .yuv420p => (width * height + width / 2 * (height / 2) * 2) % 2 ^ 64
  | .jpeg => frame.data.length

/-- Data of exactly the size that was computed without overflow. -/
def checkSize (data : List UInt8) (expected : Option Nat) : Except VideoEncoderError Unit :=
  match expected with
  | none => .error (.invalidFrameData "Invalid frame data")
  | some expected =>
    if data.length ≠ expected then .error (.invalidFrameData "Invalid frame data") else .ok ()

def validate (frame : VideoFrame) : Except VideoEncoderError Unit :=
  let width := frame.width.toNat
  let height := frame.height.toNat
  match frame.format with
  | .jpeg => checkJpeg frame.data
  | .rgb24 => checkSize frame.data do
    let size ← checked (width * height)
    checked (size * 3)
  | .nv12 =>
    if width % 2 ≠ 0 ∨ height % 2 ≠ 0 then .error (.invalidFrameData "Invalid frame data")
    else checkSize frame.data do
      let ySize ← checked (width * height)
      let quarter ← checked (width / 2 * (height / 2))
      let uvSize ← checked (quarter * 2)
      checked (ySize + uvSize)
  | .yuv420p =>
    if width % 2 ≠ 0 ∨ height % 2 ≠ 0 then .error (.invalidFrameData "Invalid frame data")
    else checkSize frame.data do
      let ySize ← checked (width * height)
      let uvSize ← checked (width / 2 * (height / 2))
      let size ← checked (ySize + uvSize)
      checked (size + uvSize)

end VideoFrame

/-- `FrameBuffer::to_video_frame`, which copies the data. -/
def FrameBuffer.toVideoFrame (buffer : FrameBuffer) : VideoFrame :=
  ⟨buffer.width, buffer.height, .owned buffer.data, buffer.format.frameFormat⟩

structure VideoFrameBuffer where
  frames : List VideoFrame
  width : Option UInt32
  height : Option UInt32

namespace VideoFrameBuffer

def new : VideoFrameBuffer := ⟨[], none, none⟩

def addFrame (buffer : VideoFrameBuffer) (frame : VideoFrame) :
    Except VideoEncoderError VideoFrameBuffer := do
  frame.validate
  let frames := buffer.frames ++ [frame]
  match buffer.width, buffer.height with
  | some width, some height =>
    if width ≠ frame.width ∨ height ≠ frame.height then .error .inconsistentFrameSizes
    else .ok { buffer with frames }
  | none, none => .ok ⟨frames, some frame.width, some frame.height⟩
  | _, _ => .ok { buffer with frames }

end VideoFrameBuffer

/-! ### Depth frames -/

structure DepthFrame where
  width : UInt32
  height : UInt32
  data : List UInt8

namespace DepthFrame

def expectedSize (frame : DepthFrame) : Nat := (frame.width * frame.height * 2).toNat

def validate (frame : DepthFrame) : Except VideoEncoderError Unit :=
  if frame.data.length ≠ frame.expectedSize then
    .error (.invalidFrameData "Invalid depth frame size")
  else .ok ()

end DepthFrame

end Roboflow.Media
