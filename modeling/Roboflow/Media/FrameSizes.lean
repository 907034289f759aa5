import Roboflow.Media.Frames

/-! The sizes the frames of the pipeline are checked against, as integers: where no product leaves
its type, each size that is computed is that of the frame. -/
namespace Roboflow.Media

variable {frame : VideoFrame} {buffer : FrameBuffer} {data : List UInt8}

/-- The bytes of a frame; a JPEG image may have any number of them. -/
def FrameFormat.size (format : FrameFormat) (width height length : Nat) : Nat :=
  match format with
  | .rgb24 => width * height * 3
  | .nv12 => width * height + width / 2 * (height / 2) * 2
  | .yuv420p => width * height + width / 2 * (height / 2) * 2
  | .jpeg => length

/-- What is asked of a frame besides its size. -/
def FrameFormat.Admits (format : FrameFormat) (width height : Nat) (data : List UInt8) : Prop :=
  match format with
  | .rgb24 => True
  | .nv12 => width % 2 = 0 ∧ height % 2 = 0
  | .yuv420p => width % 2 = 0 ∧ height % 2 = 0
  | .jpeg => 4 ≤ data.length ∧ data.take 3 = [0xFF, 0xD8, 0xFF]

theorem checked_of_fits {n : Nat} (fits : n < 2 ^ 64) : checked n = some n := by
  simp only [checked, fits, if_true]

theorem checked_of_large {n : Nat} (large : 2 ^ 64 ≤ n) : checked n = none := by
  simp only [checked, not_lt.mpr large, if_false]

theorem checkSize_checked_iff (data : List UInt8) (n : Nat) :
    VideoFrame.checkSize data (checked n) = .ok () ↔ n < 2 ^ 64 ∧ data.length = n := by
  obtain small | large := lt_or_ge n (2 ^ 64)
  · simp only [checked_of_fits small, VideoFrame.checkSize]
    split <;> simp_all
  · rw [checked_of_large large]
    simp only [VideoFrame.checkSize, reduceCtorEq, false_iff]
    omega

/-- A check against a product that may not be a `usize` is one against the product. -/
theorem checkSize_checked (fits : data.length < 2 ^ 64) (n : Nat) :
    VideoFrame.checkSize data (checked n) = .ok () ↔ data.length = n := by
  rw [checkSize_checked_iff]
  omega

theorem checkJpeg_iff : checkJpeg data = .ok () ↔
    4 ≤ data.length ∧ data.take 3 = [0xFF, 0xD8, 0xFF] := by
  unfold checkJpeg
  split
  · rename_i short
    simp
    omega
  · rename_i long
    rcases data with _ | ⟨a, _ | ⟨b, _ | ⟨c, rest⟩⟩⟩
    · simp at long
    · simp at long
    · simp at long
    · simp only [List.getElem?_cons_zero, List.getElem?_cons_succ, ne_eq, Option.some.injEq,
        List.take_succ_cons, List.take_zero, List.cons.injEq, and_true]
      split
      · rename_i other
        simp only [reduceCtorEq, false_iff]
        tauto
      · rename_i same
        simp only [true_iff]
        exact ⟨by omega, by tauto⟩

theorem u32_product_lt (a b : UInt32) : a.toNat * b.toNat < 2 ^ 64 :=
  calc a.toNat * b.toNat < 2 ^ 32 * 2 ^ 32 :=
        Nat.mul_lt_mul'' a.toNat_lt b.toNat_lt
    _ = 2 ^ 64 := by norm_num

theorem quarter_lt (a b : UInt32) : a.toNat / 2 * (b.toNat / 2) < 2 ^ 62 :=
  calc a.toNat / 2 * (b.toNat / 2) < 2 ^ 31 * 2 ^ 31 := by
        have := a.toNat_lt
        have := b.toNat_lt
        exact Nat.mul_lt_mul'' (by omega) (by omega)
    _ = 2 ^ 62 := by norm_num

theorem VideoFrame.validate_new (width height : UInt32) (data : List UInt8) :
    (VideoFrame.new width height data).validate = .ok () ↔
      width.toNat * height.toNat * 3 < 2 ^ 64 ∧
      data.length = width.toNat * height.toNat * 3 := by
  have area := u32_product_lt width height
  simp only [validate, new, VideoFrame.data, checked_of_fits area, Option.bind_eq_bind,
    Option.bind_some]
  exact checkSize_checked_iff _ _

/-- A frame is accepted exactly if it is of its format and of the size of its format. -/
theorem VideoFrame.validate_iff (fits : frame.data.length < 2 ^ 64) :
    frame.validate = .ok () ↔
      frame.format.Admits frame.width.toNat frame.height.toNat frame.data ∧
      frame.data.length =
        frame.format.size frame.width.toNat frame.height.toNat frame.data.length := by
  have area := u32_product_lt frame.width frame.height
  have quarter := quarter_lt frame.width frame.height
  unfold validate FrameFormat.Admits FrameFormat.size
  cases frame.format with
  | rgb24 =>
    simp only [checked_of_fits area, Option.bind_eq_bind, Option.bind_some, true_and]
    exact checkSize_checked fits _
  | jpeg =>
    simp only [and_true]
    exact checkJpeg_iff
  | nv12 =>
    simp only [checked_of_fits area, checked_of_fits (quarter.trans (by norm_num)),
      checked_of_fits (show frame.width.toNat / 2 * (frame.height.toNat / 2) * 2 < 2 ^ 64 by omega),
      Option.bind_eq_bind, Option.bind_some]
    split
    · rename_i odd
      simp only [reduceCtorEq, false_iff]
      omega
    · rename_i even
      rw [checkSize_checked fits]
      omega
  | yuv420p =>
    simp only [checked_of_fits area, checked_of_fits (quarter.trans (by norm_num)),
      Option.bind_eq_bind, Option.bind_some]
    split
    · rename_i odd
      simp only [reduceCtorEq, false_iff]
      omega
    · rename_i even
      have whole : ((checked (frame.width.toNat * frame.height.toNat +
          frame.width.toNat / 2 * (frame.height.toNat / 2))).bind fun size =>
            checked (size + frame.width.toNat / 2 * (frame.height.toNat / 2))) =
          checked (frame.width.toNat * frame.height.toNat +
            frame.width.toNat / 2 * (frame.height.toNat / 2) * 2) := by
        rw [Nat.mul_two, ← Nat.add_assoc]
        generalize frame.width.toNat * frame.height.toNat +
          frame.width.toNat / 2 * (frame.height.toNat / 2) = size
        obtain small | large := lt_or_ge size (2 ^ 64)
        · rw [checked_of_fits small, Option.bind_some]
        · rw [checked_of_large large, checked_of_large (by omega), Option.bind_none]
      rw [whole, checkSize_checked fits]
      omega

/-- A size that fits its type is what `expected_size` returns. -/
theorem VideoFrame.expectedSize_eq
    (fits : frame.format.size frame.width.toNat frame.height.toNat frame.data.length <
      if frame.format = .rgb24 then 2 ^ 32 else 2 ^ 64) :
    frame.expectedSize =
      frame.format.size frame.width.toNat frame.height.toNat frame.data.length := by
  unfold expectedSize
  cases format : frame.format with
  | rgb24 =>
    simp only [format, FrameFormat.size, if_true] at fits ⊢
    rw [UInt32.toNat_mul, UInt32.toNat_mul, Nat.mod_mul_mod]
    exact Nat.mod_eq_of_lt fits
  | nv12 =>
    simp only [format, FrameFormat.size, reduceCtorEq, if_false] at fits ⊢
    exact Nat.mod_eq_of_lt fits
  | yuv420p =>
    simp only [format, FrameFormat.size, reduceCtorEq, if_false] at fits ⊢
    exact Nat.mod_eq_of_lt fits
  | jpeg => simp only [FrameFormat.size]

theorem DepthFrame.validate_iff {frame : DepthFrame}
    (fits : 2 * frame.width.toNat * frame.height.toNat < 2 ^ 32) :
    frame.validate = .ok () ↔ frame.data.length = 2 * frame.width.toNat * frame.height.toNat := by
  have size : frame.expectedSize = 2 * frame.width.toNat * frame.height.toNat := by
    rw [expectedSize, UInt32.toNat_mul, UInt32.toNat_mul, Nat.mod_mul_mod]
    rw [Nat.mod_eq_of_lt] <;> · simp only [UInt32.reduceToNat]; linarith
  unfold validate
  rw [size]
  split <;> simp_all

/-- The slots of a new pool have the bytes of its frames. -/
theorem FramePool.new_slotSize {config : FramePoolConfig} {pool : FramePool}
    (fits : config.width * config.height * config.bytesPerPixel < 2 ^ 64)
    (created : FramePool.new config allocated = .ok pool) :
    pool.slotSize = config.width * config.height * config.bytesPerPixel ∧
    pool.layoutSize = pool.slotSize * config.slotCount := by
  have size : config.slotSize = config.width * config.height * config.bytesPerPixel :=
    Nat.mod_eq_of_lt fits
  unfold FramePool.new at created
  rw [size] at created
  simp only at created
  repeat' split at created
  all_goals cases created
  all_goals exact ⟨rfl, rfl⟩

/-- Both frames made of a buffer are accepted with it. -/
theorem FrameBuffer.converted_validates (valid : buffer.validate = .ok ())
    (within : buffer.len ≤ buffer.capacity)
    (fits : buffer.format.frameFormat.size buffer.width.toNat buffer.height.toNat
      buffer.data.length < 2 ^ 64)
    (even : buffer.format = .nv12 ∨ buffer.format = .yuv420p →
      buffer.width.toNat % 2 = 0 ∧ buffer.height.toNat % 2 = 0) :
    buffer.toVideoFrame.validate = .ok () ∧
    (VideoFrame.fromArcFrameBuffer buffer).validate = .ok () := by
  have length : buffer.data.length = buffer.len := by
    unfold FrameBuffer.capacity at within
    simp only [FrameBuffer.data, List.length_take]
    omega
  have accepted : buffer.format.frameFormat.Admits buffer.width.toNat buffer.height.toNat
        buffer.data ∧
      buffer.data.length = buffer.format.frameFormat.size buffer.width.toNat buffer.height.toNat
        buffer.data.length := by
    unfold FrameBuffer.validate FrameBuffer.expectedSize at valid
    revert valid fits even
    rw [length]
    cases buffer.format with
    | jpeg =>
      intro valid _ _
      simpa [PixelFormat.frameFormat, FrameFormat.Admits, FrameFormat.size, checkJpeg_iff] using valid
    | rgb24 =>
      intro valid fits _
      simp only [PixelFormat.frameFormat, FrameFormat.size] at fits
      simp only [Nat.mod_eq_of_lt fits] at valid
      simpa [PixelFormat.frameFormat, FrameFormat.Admits, FrameFormat.size]
        using valid
    | nv12 =>
      intro valid fits even
      simp only [PixelFormat.frameFormat, FrameFormat.size] at fits
      simp only [Nat.mod_eq_of_lt fits] at valid
      simpa [PixelFormat.frameFormat, FrameFormat.Admits, FrameFormat.size,
        even (.inl rfl)] using valid
    | yuv420p =>
      intro valid fits even
      simp only [PixelFormat.frameFormat, FrameFormat.size] at fits
      simp only [Nat.mod_eq_of_lt fits] at valid
      simpa [PixelFormat.frameFormat, FrameFormat.Admits, FrameFormat.size,
        even (.inr rfl)] using valid
  have size : buffer.data.length < 2 ^ 64 := accepted.2 ▸ fits
  constructor
  · apply (VideoFrame.validate_iff _).mpr accepted
    exact size
  · apply (VideoFrame.validate_iff _).mpr accepted
    exact size

/-- For all dimensions and all data. Depth frames are held against their size where it is a `u32`;
video frames against that of their format, which is also what is expected where it fits its
type; pools against the size of their slots where that is a `usize`; and a buffer that is
accepted, with its data in its storage and, where its chroma is halved, of even dimensions,
gives frames that are. -/
theorem frame_sizes (width height : UInt32) (data : List UInt8) (fits : data.length < 2 ^ 64) :
    (2 * width.toNat * height.toNat < 2 ^ 32 →
      ((DepthFrame.mk width height data).validate = .ok () ↔
        data.length = 2 * width.toNat * height.toNat)) ∧
    (∀ frame : VideoFrame, frame.width = width → frame.height = height → frame.data = data →
      (frame.validate = .ok () ↔
        frame.format.Admits width.toNat height.toNat data ∧
        data.length = frame.format.size width.toNat height.toNat data.length) ∧
      (frame.format.size width.toNat height.toNat data.length <
          (if frame.format = .rgb24 then 2 ^ 32 else 2 ^ 64) →
        frame.expectedSize = frame.format.size width.toNat height.toNat data.length)) ∧
    (∀ bytesPerPixel slotCount allocated pool,
      width.toNat * height.toNat * bytesPerPixel < 2 ^ 64 →
      FramePool.new ⟨width.toNat, height.toNat, bytesPerPixel, slotCount⟩ allocated = .ok pool →
      pool.slotSize = width.toNat * height.toNat * bytesPerPixel ∧
      pool.layoutSize = pool.slotSize * slotCount) ∧
    ∀ buffer : FrameBuffer, buffer.width = width → buffer.height = height → buffer.data = data →
      buffer.len ≤ buffer.capacity →
      buffer.format.frameFormat.size width.toNat height.toNat data.length < 2 ^ 64 →
      (buffer.format = .nv12 ∨ buffer.format = .yuv420p →
        width.toNat % 2 = 0 ∧ height.toNat % 2 = 0) →
      buffer.validate = .ok () →
      buffer.toVideoFrame.validate = .ok () ∧
      (VideoFrame.fromArcFrameBuffer buffer).validate = .ok () := by
  refine ⟨fun small => DepthFrame.validate_iff small, ?_, ?_, ?_⟩
  · rintro frame rfl rfl rfl
    exact ⟨VideoFrame.validate_iff fits, VideoFrame.expectedSize_eq⟩
  · intro bytesPerPixel slotCount allocated pool small created
    exact FramePool.new_slotSize small created
  · rintro buffer rfl rfl rfl within small even valid
    exact FrameBuffer.converted_validates valid within small even

theorem frame_sizes_two_by_two :
    (DepthFrame.mk 2 2 (List.replicate 8 0)).validate = .ok () ∧
    (VideoFrame.new 2 2 (List.replicate 8 0)).validate ≠ .ok () := by
  have sizes := frame_sizes 2 2 (List.replicate 8 0) (by simp)
  refine ⟨(sizes.1 (by simp)).mpr (by simp), fun valid => ?_⟩
  have accepted := ((sizes.2.1 (VideoFrame.new 2 2 (List.replicate 8 0)) rfl rfl rfl).1.mp valid).2
  simp [VideoFrame.new, FrameFormat.size] at accepted

/-- NV12 data of the size of an odd frame, which is also the expected one, is refused; depth data of
no byte is accepted for 2 ^ 32 pixels. -/
theorem odd_frame_refused :
    let odd : VideoFrame := ⟨3, 3, .owned (List.replicate 11 0), .nv12⟩
    odd.data.length = FrameFormat.nv12.size 3 3 11 ∧ odd.expectedSize = 11 ∧
    odd.validate = .error (.invalidFrameData "Invalid frame data") ∧
    (DepthFrame.mk 65536 65536 []).validate = .ok () := by
  decide

end Roboflow.Media
