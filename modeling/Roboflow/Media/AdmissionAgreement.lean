import Roboflow.Media.FrameSizes
import Roboflow.Media.ImageAdmission

/-! Whether the routes to an encoder admit the same images. A frame buffer takes the size of the
first frame it accepts, an encoding thread that of the first picture it is given, and only the
thread looks at an encoded image whose dimensions are not known. -/
namespace Roboflow.Media

variable {decoder : Decoder} {opens : UInt32 → UInt32 → Bool} {images : List ImageData}
  {image : ImageData} {picture : RgbImage} {pictures : List RgbImage}

/-! ### Both branches of the frame buffer -/

/-- What a frame buffer makes of an image by itself. -/
def bufferPicture (decoder : Decoder) (image : ImageData) : Option RgbImage :=
  if image.Unsized then none else image.decodeToRgb decoder

/-- A picture into the buffer; an image without one is skipped. -/
def admitPicture (state : VideoFrameBuffer × Nat) (picture : Option RgbImage) :
    VideoFrameBuffer × Nat :=
  match picture with
  | some picture => addOrSkip state picture
  | none => (state.1, state.2 + 1)

theorem sequentialStep_eq (state : VideoFrameBuffer × Nat) :
    sequentialStep decoder state image = admitPicture state (bufferPicture decoder image) := by
  unfold sequentialStep bufferPicture ImageData.decodeToRgb
  split
  · rfl
  · split <;> rfl

theorem collect_eq (state : VideoFrameBuffer × Nat) :
    collect state (decodeParallel decoder image) =
      admitPicture state (bufferPicture decoder image) := by
  unfold decodeParallel bufferPicture ImageData.decodeToRgb
  split
  · rfl
  · split
    · cases decoder.decode image.data <;> rfl
    · rfl

theorem buildSequential_eq : buildSequential decoder images =
    (images.map (bufferPicture decoder)).foldl admitPicture (.new, 0) := by
  rw [buildSequential, List.foldl_map]
  congr 1
  funext state image
  exact sequentialStep_eq state

theorem buildParallel_eq : buildParallel decoder images =
    (images.map (bufferPicture decoder)).foldl admitPicture (.new, 0) := by
  rw [buildParallel, List.foldl_map, List.foldl_map]
  congr 1
  funext state image
  exact collect_eq state

/-- The branch taken makes no difference. -/
theorem buildFrameBufferStatic_eq (threads : Nat) :
    buildFrameBufferStatic decoder threads images =
      (images.map (bufferPicture decoder)).foldl admitPicture (.new, 0) := by
  unfold buildFrameBufferStatic
  dsimp only
  split
  · exact buildParallel_eq
  · exact buildSequential_eq

/-! ### What a frame buffer keeps -/

namespace RgbImage

/-- A picture with the bytes of its dimensions. -/
def Fits (picture : RgbImage) : Prop := picture.frame.validate = .ok ()

instance (picture : RgbImage) : Decidable picture.Fits :=
  inferInstanceAs (Decidable (picture.frame.validate = .ok ()))

def SameSize (picture other : RgbImage) : Prop :=
  picture.width = other.width ∧ picture.height = other.height

instance (picture other : RgbImage) : Decidable (picture.SameSize other) :=
  inferInstanceAs (Decidable (_ ∧ _))

end RgbImage

/-- The fitting pictures of the size of one of them. -/
def fittingLike (first : RgbImage) (pictures : List RgbImage) : List RgbImage :=
  pictures.filter fun picture => picture.SameSize first ∧ picture.Fits

/-- The pictures that a frame buffer keeps: those of the size of the first fitting one. -/
def keptByBuffer (pictures : List RgbImage) : List RgbImage :=
  match pictures.find? fun picture => picture.Fits with
  | none => []
  | some first => fittingLike first pictures

theorem fittingLike_append (first picture : RgbImage) (pictures : List RgbImage) :
    fittingLike first (pictures ++ [picture]) = fittingLike first pictures ++
      if picture.SameSize first ∧ picture.Fits then [picture] else [] := by
  unfold fittingLike
  rw [List.filter_append]
  congr 1
  simp only [List.filter_cons, List.filter_nil, decide_eq_true_eq]

theorem fittingLike_of_none (first : RgbImage)
    (none_ : pictures.find? (fun picture => picture.Fits) = none) :
    fittingLike first pictures = [] := by
  refine List.filter_eq_nil_iff.mpr fun picture member => ?_
  have unfit := List.find?_eq_none.mp none_ picture member
  simp only [decide_eq_true_eq] at unfit ⊢
  exact fun both => unfit both.2

theorem find_append (picture : RgbImage) (pictures : List RgbImage) :
    (pictures ++ [picture]).find? (fun picture => picture.Fits) =
      (pictures.find? fun picture => picture.Fits).or
        (if picture.Fits then some picture else none) := by
  rw [List.find?_append]
  congr 1
  simp only [List.find?_cons, List.find?_nil]
  split <;> simp_all

/-- The buffer after pictures: what it keeps of them, and the size it has taken. -/
structure BufferOf (pictures : List RgbImage) (buffer : VideoFrameBuffer) : Prop where
  frames : buffer.frames = (keptByBuffer pictures).map RgbImage.frame
  width : buffer.width = (pictures.find? fun picture => picture.Fits).map (·.width)
  height : buffer.height = (pictures.find? fun picture => picture.Fits).map (·.height)

theorem addFrame_unfit (buffer : VideoFrameBuffer) (unfit : ¬picture.Fits) :
    ∃ error, buffer.addFrame picture.frame = .error error := by
  unfold VideoFrameBuffer.addFrame
  cases checked : picture.frame.validate with
  | error error => exact ⟨error, rfl⟩
  | ok _ => exact absurd checked unfit

/-- A picture that does not fit is skipped. -/
theorem addOrSkip_unfit {state : VideoFrameBuffer × Nat} (unfit : ¬picture.Fits) :
    addOrSkip state picture = (state.1, state.2 + 1) := by
  obtain ⟨error, refused⟩ := addFrame_unfit state.1 unfit
  unfold addOrSkip
  rw [refused]

/-- A fitting picture is taken by an empty buffer, and by another one if it is of its size. -/
theorem addOrSkip_fitting {state : VideoFrameBuffer × Nat} (fits : picture.Fits) :
    addOrSkip state picture =
      match state.1.width, state.1.height with
      | some width, some height =>
        if width = picture.width ∧ height = picture.height then
          ({ state.1 with frames := state.1.frames ++ [picture.frame] }, state.2)
        else (state.1, state.2 + 1)
      | none, none =>
        (⟨state.1.frames ++ [picture.frame], some picture.width, some picture.height⟩, state.2)
      | _, _ => ({ state.1 with frames := state.1.frames ++ [picture.frame] }, state.2) := by
  have checked : picture.frame.validate = .ok () := fits
  unfold addOrSkip VideoFrameBuffer.addFrame
  rw [checked]
  obtain ⟨⟨frames, _ | width, _ | height⟩, skipped⟩ := state
  · rfl
  · rfl
  · rfl
  · by_cases same : width = picture.width ∧ height = picture.height
    · have equal : ¬(width ≠ picture.frame.width ∨ height ≠ picture.frame.height) := by
        simpa [RgbImage.frame, VideoFrame.new] using same
      simp only [if_pos same, if_neg equal]
      rfl
    · have differ : width ≠ picture.frame.width ∨ height ≠ picture.frame.height := by
        simpa [RgbImage.frame, VideoFrame.new, imp_iff_not_or] using same
      simp only [if_neg same, if_pos differ]
      rfl

theorem keptByBuffer_unfit (unfit : ¬picture.Fits) :
    keptByBuffer (pictures ++ [picture]) = keptByBuffer pictures := by
  unfold keptByBuffer
  rw [find_append, if_neg unfit, Option.or_none]
  cases pictures.find? fun picture => picture.Fits with
  | none => rfl
  | some first => simp only [fittingLike_append, unfit, and_false, if_false, List.append_nil]

theorem keptByBuffer_first (fits : picture.Fits)
    (none_ : pictures.find? (fun picture => picture.Fits) = none) :
    keptByBuffer pictures = [] ∧ keptByBuffer (pictures ++ [picture]) = [picture] := by
  unfold keptByBuffer
  rw [find_append, if_pos fits, none_]
  simp [fittingLike_append, fittingLike_of_none picture none_, RgbImage.SameSize, fits]

theorem keptByBuffer_next (fits : picture.Fits)
    (some_ : pictures.find? (fun picture => picture.Fits) = some first) :
    keptByBuffer (pictures ++ [picture]) =
      keptByBuffer pictures ++ if picture.SameSize first then [picture] else [] := by
  unfold keptByBuffer
  rw [find_append, some_]
  simp only [Option.some_or, fittingLike_append, fits, and_true]

/-- One more picture: the buffer takes it, or it is skipped. -/
theorem BufferOf.add {state : VideoFrameBuffer × Nat} (before : BufferOf pictures state.1)
    (picture : RgbImage) : BufferOf (pictures ++ [picture]) (addOrSkip state picture).1 := by
  obtain ⟨frames, width, height⟩ := before
  by_cases fits : picture.Fits
  · rw [addOrSkip_fitting fits]
    cases first : pictures.find? fun picture => picture.Fits with
    | none =>
      rw [first] at width height
      obtain ⟨empty, one⟩ := keptByBuffer_first fits first
      rw [width, height]
      refine ⟨?_, ?_, ?_⟩
      · simp [frames, empty, one]
      · simp [first, fits]
      · simp [first, fits]
    | some other =>
      have more := keptByBuffer_next fits first
      rw [first] at width height
      rw [width, height]
      simp only [Option.map_some]
      have size : (other.width = picture.width ∧ other.height = picture.height) ↔
          picture.SameSize other := by
        unfold RgbImage.SameSize
        tauto
      simp only [size]
      split
      · rename_i same
        refine ⟨?_, ?_, ?_⟩
        · simp [frames, more, same]
        · simp [first, width]
        · simp [first, height]
      · rename_i differs
        refine ⟨?_, ?_, ?_⟩
        · simp [frames, more, differs]
        · simp [first, width]
        · simp [first, height]
  · rw [addOrSkip_unfit fits]
    have found := find_append picture pictures
    rw [if_neg fits, Option.or_none] at found
    exact ⟨by rw [frames, keptByBuffer_unfit fits], by rw [width, found], by rw [height, found]⟩

/-- Every image is kept or skipped. -/
theorem addOrSkip_count (state : VideoFrameBuffer × Nat) (picture : RgbImage) :
    (addOrSkip state picture).1.frames.length + (addOrSkip state picture).2 =
      state.1.frames.length + state.2 + 1 := by
  by_cases fits : picture.Fits
  · rw [addOrSkip_fitting fits]
    obtain ⟨⟨frames, _ | width, _ | height⟩, skipped⟩ := state
    · simp only [List.length_append, List.length_singleton]
      omega
    · simp only [List.length_append, List.length_singleton]
      omega
    · simp only [List.length_append, List.length_singleton]
      omega
    · dsimp only
      split
      · simp only [List.length_append, List.length_singleton]
        omega
      · rfl
  · rw [addOrSkip_unfit fits]
    rfl

/-- The pictures a frame buffer is made of. -/
def bufferPictures (decoder : Decoder) (images : List ImageData) : List RgbImage :=
  images.filterMap (bufferPicture decoder)

/-- What `build_frame_buffer_static` keeps, and that it counts all others. -/
theorem build_keeps (decoder : Decoder) (threads : Nat) (images : List ImageData) :
    let (buffer, skipped) := buildFrameBufferStatic decoder threads images
    BufferOf (bufferPictures decoder images) buffer ∧
    buffer.frames.length + skipped = images.length := by
  dsimp only
  rw [buildFrameBufferStatic_eq]
  unfold bufferPictures
  induction images using List.reverseRecOn with
  | nil => exact ⟨⟨rfl, rfl, rfl⟩, rfl⟩
  | append_singleton images image ih =>
    obtain ⟨kept, count⟩ := ih
    simp only [List.map_append, List.map_cons, List.map_nil, List.foldl_append, List.foldl_cons,
      List.foldl_nil, List.filterMap_append, List.length_append, List.length_singleton]
    cases prepared : bufferPicture decoder image with
    | none =>
      simp only [List.filterMap_cons, prepared, List.filterMap_nil, List.append_nil]
      exact ⟨kept, by simp only [admitPicture]; omega⟩
    | some picture =>
      simp only [List.filterMap_cons, prepared, List.filterMap_nil]
      refine ⟨kept.add picture, ?_⟩
      simp only [admitPicture, addOrSkip_count, count]

/-! ### What an encoding thread keeps -/

/-- What an encoding thread makes of an image by itself. -/
def threadPicture (decoder : Decoder) (image : ImageData) : Option RgbImage :=
  if !image.isEncoded ∧ image.Unsized then none else image.decodeToRgb decoder

def threadPictures (decoder : Decoder) (images : List ImageData) : List RgbImage :=
  images.filterMap (threadPicture decoder)

theorem threadPicture_positive (given : threadPicture decoder image = some picture) :
    picture.width ≠ 0 ∧ picture.height ≠ 0 := by
  unfold threadPicture ImageData.decodeToRgb at given
  split at given
  · cases given
  · rename_i sized
    split at given
    · have true_ := decoder.true_ _ _ given
      have width := UInt32.lt_iff_toNat_lt.mp true_.1
      have height := UInt32.lt_iff_toNat_lt.mp true_.2.1
      constructor
      · rintro zero
        simp [zero] at width
      · rintro zero
        simp [zero] at height
    · rename_i raw
      obtain rfl := Option.some.inj given
      simpa [raw, ImageData.Unsized] using sized

/-- The pictures that an encoding thread keeps: the fitting ones of the size of the first picture of
all, without the one for which a codec was to be opened and did not open. -/
def keptByThread (opens : UInt32 → UInt32 → Bool) (pictures : List RgbImage) : List RgbImage :=
  match pictures with
  | [] => []
  | first :: _ =>
    if opens first.width first.height then fittingLike first pictures
    else (fittingLike first pictures).tail

/-- The encoder once pictures were given of which `first` was the first. -/
structure EncoderOf (opens : UInt32 → UInt32 → Bool) (first : RgbImage)
    (pictures : List RgbImage) (encoder : VideoEncoder) : Prop where
  frames : encoder.frameBuffer.frames =
    (if opens first.width first.height then fittingLike first pictures
      else (fittingLike first pictures).tail).map RgbImage.frame
  size : ∀ w ∈ encoder.frameBuffer.width, w = first.width
  heights : ∀ h ∈ encoder.frameBuffer.height, h = first.height
  unopened : encoder.width = 0 → fittingLike first pictures = []
  opened : encoder.width ≠ 0 → encoder.width = first.width ∧ encoder.height = first.height ∧
    ∀ picture : RgbImage, picture.SameSize first → picture.Fits → fittingLike first pictures ≠ []

/-- `encode_frame` takes the data of this picture for complete. -/
def RgbImage.Sized (picture : RgbImage) : Prop :=
  picture.data.length = picture.width.toNat * picture.height.toNat * 3 % 2 ^ 64

theorem RgbImage.fits_iff : picture.Fits ↔
    picture.width.toNat * picture.height.toNat * 3 < 2 ^ 64 ∧
    picture.data.length = picture.width.toNat * picture.height.toNat * 3 :=
  VideoFrame.validate_new _ _ _

theorem RgbImage.Fits.sized (fits : picture.Fits) : picture.Sized := by
  obtain ⟨small, length⟩ := fits_iff.mp fits
  rw [Sized, length, Nat.mod_eq_of_lt small]

/-- Where a picture of the same dimensions fits, complete data fits as well. -/
theorem RgbImage.Sized.fits {other : RgbImage} (sized : picture.Sized)
    (same : other.SameSize picture) (fits : other.Fits) : picture.Fits := by
  obtain ⟨small, -⟩ := fits_iff.mp fits
  rw [same.1, same.2] at small
  refine fits_iff.mpr ⟨small, ?_⟩
  rw [sized, Nat.mod_eq_of_lt small]

/-- A buffer without a size, or with that of the picture, takes it if it fits. -/
theorem addFrame_fitting {buffer : VideoFrameBuffer} (fits : picture.Fits)
    (width : ∀ w ∈ buffer.width, w = picture.width)
    (height : ∀ h ∈ buffer.height, h = picture.height) :
    ∃ added, buffer.addFrame picture.frame = .ok added ∧
      added.frames = buffer.frames ++ [picture.frame] ∧
      (∀ w ∈ added.width, w = picture.width) ∧ ∀ h ∈ added.height, h = picture.height := by
  have checked : picture.frame.validate = .ok () := fits
  unfold VideoFrameBuffer.addFrame
  rw [checked]
  obtain ⟨frames, _ | w, _ | h⟩ := buffer
  · refine ⟨_, rfl, rfl, ?_, ?_⟩
    · rintro w ⟨⟩
      rfl
    · rintro h ⟨⟩
      rfl
  · exact ⟨_, rfl, rfl, width, height⟩
  · exact ⟨_, rfl, rfl, width, height⟩
  · have same : ¬(w ≠ picture.frame.width ∨ h ≠ picture.frame.height) := by
      simp [width w rfl, height h rfl, RgbImage.frame, VideoFrame.new]
    refine ⟨⟨frames ++ [picture.frame], some w, some h⟩, ?_, rfl, width, height⟩
    simp only [if_neg same]
    rfl

theorem encodeFrame_incomplete (opens : UInt32 → UInt32 → Bool) (encoder : VideoEncoder)
    (positive : picture.width ≠ 0 ∧ picture.height ≠ 0) (incomplete : ¬picture.Sized) :
    ∃ message, encoder.encodeFrame opens picture.data picture.width picture.height =
      (.error message, encoder) := by
  unfold RgbImage.Sized at incomplete
  unfold VideoEncoder.encodeFrame
  rw [if_neg (by simp [positive])]
  exact ⟨_, if_pos incomplete⟩

/-- Complete data of the size of the encoder, which the first such frame gives it. -/
theorem encodeFrame_sized (encoder : VideoEncoder)
    (positive : picture.width ≠ 0 ∧ picture.height ≠ 0) (sized : picture.Sized)
    (size : encoder.width = 0 ∨ encoder.width = picture.width ∧ encoder.height = picture.height) :
    encoder.encodeFrame opens picture.data picture.width picture.height =
      if encoder.width = 0 ∧ opens picture.width picture.height = false then
        (.error "Failed to open codec",
          { encoder with width := picture.width, height := picture.height })
      else
        match encoder.frameBuffer.addFrame picture.frame with
        | .error _ =>
          (.error "Failed to add frame",
            { encoder with width := picture.width, height := picture.height })
        | .ok frameBuffer =>
          (.ok (), ⟨picture.width, picture.height, frameBuffer, encoder.frameCount + 1⟩) := by
  unfold RgbImage.Sized at sized
  by_cases fresh : encoder.width = 0
  · simp only [VideoEncoder.encodeFrame, positive.1, positive.2, or_self, if_false, ne_eq, sized,
      not_true_eq_false, fresh, if_true, true_and, Bool.not_eq_true']
    rfl
  · obtain ⟨width, height⟩ := size.resolve_left fresh
    obtain ⟨w, h, frameBuffer, frameCount⟩ := encoder
    obtain rfl : w = picture.width := width
    obtain rfl : h = picture.height := height
    simp only [VideoEncoder.encodeFrame, positive.1, positive.2, or_self, if_false, ne_eq, sized,
      not_true_eq_false, false_and]
    rfl

namespace EncoderOf
variable {first : RgbImage} {encoder : VideoEncoder}

/-- A picture that is of another size or does not fit is not kept. -/
theorem skip (before : EncoderOf opens first pictures encoder)
    (unkept : ¬(picture.SameSize first ∧ picture.Fits)) :
    EncoderOf opens first (pictures ++ [picture]) encoder := by
  have same : fittingLike first (pictures ++ [picture]) = fittingLike first pictures := by
    rw [fittingLike_append, if_neg unkept, List.append_nil]
  exact ⟨same ▸ before.frames, before.size, before.heights, same ▸ before.unopened,
    same ▸ before.opened⟩

theorem fittingLike_self (same : picture.SameSize first) (fits : picture.Fits) :
    fittingLike first (pictures ++ [picture]) = fittingLike first pictures ++ [picture] := by
  rw [fittingLike_append, if_pos ⟨same, fits⟩]

/-- After complete data, the encoder has its size for good. -/
theorem resized (same : picture.SameSize first) (sized : picture.Sized) (other : RgbImage)
    (like : other.SameSize first) (fits : other.Fits) :
    fittingLike first (pictures ++ [picture]) ≠ [] := by
  have self : picture.Fits := sized.fits ⟨like.1.trans same.1.symm, like.2.trans same.2.symm⟩ fits
  rw [fittingLike_self same self]
  simp

/-- Complete data has given the encoder its size, without being kept. -/
theorem resize (before : EncoderOf opens first pictures encoder) (same : picture.SameSize first)
    (positive : picture.width ≠ 0) (sized : picture.Sized)
    (unkept : ¬picture.Fits ∨ encoder.width = 0 ∧ opens picture.width picture.height = false) :
    EncoderOf opens first (pictures ++ [picture])
      { encoder with width := picture.width, height := picture.height } := by
  refine ⟨?_, before.size, before.heights, fun zero => absurd zero positive, fun _ => ?_⟩
  · by_cases fits : picture.Fits
    · obtain ⟨fresh, closed⟩ := unkept.resolve_left (not_not.mpr fits)
      rw [same.1, same.2] at closed
      have empty := before.unopened fresh
      have frames := before.frames
      simp only [closed, empty] at frames
      simp [closed, fittingLike_self same fits, empty, frames]
    · exact (before.skip fun both => fits both.2).frames
  · exact ⟨same.1, same.2, resized same sized⟩

/-- A kept picture. -/
theorem keep (before : EncoderOf opens first pictures encoder) (same : picture.SameSize first)
    (positive : picture.width ≠ 0) (fits : picture.Fits)
    (open_ : encoder.width ≠ 0 ∨ opens picture.width picture.height = true)
    {added : VideoFrameBuffer} (frames : added.frames = encoder.frameBuffer.frames ++ [picture.frame])
    (widths : ∀ w ∈ added.width, w = picture.width)
    (heights : ∀ h ∈ added.height, h = picture.height) (count : Nat) :
    EncoderOf opens first (pictures ++ [picture]) ⟨picture.width, picture.height, added, count⟩ := by
  refine ⟨?_, same.1 ▸ widths, same.2 ▸ heights, fun zero => absurd zero positive, fun _ => ?_⟩
  · rw [frames, before.frames, fittingLike_self same fits]
    rw [same.1, same.2] at open_
    split
    · simp
    · rename_i closed
      have some_ := (before.opened (open_.resolve_right closed)).2.2 picture same fits
      rw [List.tail_append_of_ne_nil some_]
      simp
  · exact ⟨same.1, same.2, resized same fits.sized⟩

/-- One more picture of the size of the first. -/
theorem encode (before : EncoderOf opens first pictures encoder) (same : picture.SameSize first)
    (positive : picture.width ≠ 0 ∧ picture.height ≠ 0) :
    EncoderOf opens first (pictures ++ [picture])
      (encoder.encodeFrame opens picture.data picture.width picture.height).2 := by
  by_cases sized : picture.Sized
  · have size : encoder.width = 0 ∨ encoder.width = picture.width ∧ encoder.height = picture.height := by
      refine or_iff_not_imp_left.mpr fun opened => ?_
      obtain ⟨width, height, -⟩ := before.opened opened
      exact ⟨width.trans same.1.symm, height.trans same.2.symm⟩
    rw [encodeFrame_sized encoder positive sized size]
    split
    · rename_i closed
      exact before.resize same positive.1 sized (.inr closed)
    · rename_i ready
      by_cases fits : picture.Fits
      · obtain ⟨added, accepted, frames, widths, heights⟩ := addFrame_fitting fits
          (same.1.symm ▸ before.size) (same.2.symm ▸ before.heights)
        rw [accepted]
        refine before.keep same positive.1 fits ?_ frames widths heights _
        rw [← Bool.not_eq_false]
        tauto
      · obtain ⟨error, refused⟩ := addFrame_unfit encoder.frameBuffer fits
        rw [refused]
        exact before.resize same positive.1 sized (.inl fits)
  · obtain ⟨message, refused⟩ := encodeFrame_incomplete opens encoder positive sized
    rw [refused]
    exact before.skip fun both => sized both.2.sized

end EncoderOf

theorem addFrame_frames {buffer added : VideoFrameBuffer} {frame : VideoFrame}
    (accepted : buffer.addFrame frame = .ok added) : added.frames = buffer.frames ++ [frame] := by
  unfold VideoFrameBuffer.addFrame at accepted
  cases checked : frame.validate with
  | error error =>
    rw [checked] at accepted
    cases accepted
  | ok _ =>
    rw [checked] at accepted
    obtain ⟨frames, _ | w, _ | h⟩ := buffer
    · cases accepted
      rfl
    · cases accepted
      rfl
    · cases accepted
      rfl
    · change (if _ then _ else _) = _ at accepted
      split at accepted
      · cases accepted
      · cases accepted
        rfl

/-- A frame is reported as encoded exactly if it was buffered. -/
theorem encodeFrame_count (opens : UInt32 → UInt32 → Bool) (encoder : VideoEncoder)
    (rgbData : List UInt8) (width height : UInt32) :
    (encoder.encodeFrame opens rgbData width height).2.frameBuffer.frames.length =
      encoder.frameBuffer.frames.length +
        match (encoder.encodeFrame opens rgbData width height).1 with
        | .ok _ => 1
        | .error _ => 0 := by
  have grown (w h : UInt32) {added : VideoFrameBuffer}
      (accepted : encoder.frameBuffer.addFrame (.new w h rgbData) = .ok added) :
      added.frames.length = encoder.frameBuffer.frames.length + 1 := by
    simp [addFrame_frames accepted]
  unfold VideoEncoder.encodeFrame
  split
  · rfl
  · dsimp only
    split
    · rfl
    · by_cases fresh : encoder.width = 0
      · simp only [fresh, if_true, true_and, ne_eq, not_true_eq_false, or_self, if_false]
        split
        · rfl
        · cases accepted : encoder.frameBuffer.addFrame (.new width height rgbData) with
          | error _ => rfl
          | ok added => exact grown _ _ accepted
      · simp only [fresh, if_false, false_and]
        split
        · rfl
        · cases accepted :
            encoder.frameBuffer.addFrame (.new encoder.width encoder.height rgbData) with
          | error _ => rfl
          | ok added => exact grown _ _ accepted

/-- The thread after pictures: it has the size of the first one, and counts what its encoder keeps. -/
structure ThreadStarted (opens : UInt32 → UInt32 → Bool) (first : RgbImage)
    (pictures : List RgbImage) (thread : EncodingThread) : Prop where
  some_ : first.width ≠ 0
  width : thread.width = first.width
  height : thread.height = first.height
  encoder : ∃ encoder, thread.encoder = some encoder ∧ EncoderOf opens first pictures encoder ∧
    thread.framesEncoded = encoder.frameBuffer.frames.length

def ThreadOf (opens : UInt32 → UInt32 → Bool) (pictures : List RgbImage)
    (thread : EncodingThread) : Prop :=
  match pictures with
  | [] => thread.width = 0 ∧ thread.encoder = none ∧ thread.framesEncoded = 0
  | first :: _ => ThreadStarted opens first pictures thread

theorem encoderOf_new (first : RgbImage) : EncoderOf opens first [] .new := by
  refine ⟨?_, fun _ given => ?_, fun _ given => ?_, fun _ => rfl, fun sized => absurd rfl sized⟩
  · simp [VideoEncoder.new, VideoFrameBuffer.new, fittingLike]
  · cases given
  · cases given

/-- The thread when a picture comes, with an encoder made for it if it is the first one. -/
theorem ThreadOf.firstFrame {thread : EncodingThread} (before : ThreadOf opens pictures thread)
    (positive : picture.width ≠ 0) :
    ∃ first, (pictures ++ [picture]).head? = some first ∧
      ThreadStarted opens first pictures (thread.firstFrame picture) := by
  cases pictures with
  | nil =>
    obtain ⟨zero, -, count⟩ := before
    have fresh : thread.firstFrame picture =
        { thread with width := picture.width, height := picture.height, encoder := some .new } :=
      if_pos zero
    rw [fresh]
    exact ⟨picture, rfl, positive, rfl, rfl, .new, rfl, encoderOf_new picture, count⟩
  | cons first rest =>
    have same : thread.firstFrame picture = thread := if_neg (before.width ▸ before.some_)
    rw [same]
    exact ⟨first, rfl, before⟩

theorem ThreadStarted.threadOf {thread : EncodingThread} {first : RgbImage}
    (started : ThreadStarted opens first pictures thread) (head : pictures.head? = some first) :
    ThreadOf opens pictures thread := by
  cases pictures with
  | nil => cases head
  | cons other rest =>
    obtain rfl : other = first := Option.some.inj head
    exact started

theorem ThreadOf.skip {thread : EncodingThread} (before : ThreadOf opens pictures thread) :
    ThreadOf opens pictures thread.skip := by
  cases pictures with
  | nil => exact before
  | cons first rest => exact ⟨before.some_, before.width, before.height, before.encoder⟩

/-- One more picture for the thread. -/
theorem ThreadStarted.encode {thread : EncodingThread} {first : RgbImage}
    (before : ThreadStarted opens first pictures thread)
    (positive : picture.width ≠ 0 ∧ picture.height ≠ 0) :
    ThreadStarted opens first (pictures ++ [picture]) (thread.encode opens picture) := by
  obtain ⟨some_, width, height, encoder, held, kept, count⟩ := before
  unfold EncodingThread.encode
  split
  · rename_i other
    have unlike : ¬(picture.SameSize first ∧ picture.Fits) := by
      rintro ⟨same, -⟩
      rw [width, height] at other
      exact other.elim (· same.1) (· same.2)
    exact ⟨some_, width, height, encoder, held, kept.skip unlike, count⟩
  · rename_i like
    have same : picture.SameSize first := by
      rw [width, height] at like
      exact (not_or.mp like).imp not_not.mp not_not.mp
    have after := kept.encode same positive
    have grown := encodeFrame_count opens encoder picture.data picture.width picture.height
    rw [held]
    dsimp only
    split
    · rename_i encoded
      rw [encoded] at grown
      exact ⟨some_, width, height, _, rfl, after, by simp only [grown, count]⟩
    · rename_i failed
      rw [failed] at grown
      exact ⟨some_, width, height, _, rfl, after, by simp only [EncodingThread.skip, grown, count]; rfl⟩

theorem frame_eq (thread : EncodingThread) : thread.frame decoder opens image =
    match threadPicture decoder image with
    | none => thread.skip
    | some picture => (thread.firstFrame picture).encode opens picture := by
  unfold EncodingThread.frame threadPicture
  split <;> rfl

/-- What an encoding thread keeps. -/
theorem thread_keeps (decoder : Decoder) (opens : UInt32 → UInt32 → Bool) (images : List ImageData) :
    ThreadOf opens (threadPictures decoder images) (encodingThread decoder opens images) := by
  unfold threadPictures encodingThread
  induction images using List.reverseRecOn with
  | nil => exact ⟨rfl, rfl, rfl⟩
  | append_singleton images image ih =>
    rw [List.filterMap_append, List.foldl_append, List.foldl_cons, List.foldl_nil, frame_eq]
    simp only [List.filterMap_cons, List.filterMap_nil]
    cases given : threadPicture decoder image with
    | none => simpa using ih.skip
    | some picture =>
      have positive := threadPicture_positive given
      obtain ⟨first, head, started⟩ := ih.firstFrame positive.1
      exact (started.encode positive).threadOf head

theorem ThreadOf.frames {thread : EncodingThread} (reached : ThreadOf opens pictures thread) :
    thread.frames = (keptByThread opens pictures).map RgbImage.frame ∧
    thread.framesEncoded = thread.frames.length := by
  unfold EncodingThread.frames
  cases pictures with
  | nil =>
    obtain ⟨-, none_, count⟩ := reached
    rw [none_]
    exact ⟨rfl, count⟩
  | cons first rest =>
    obtain ⟨encoder, held, kept, count⟩ := reached.encoder
    rw [held]
    exact ⟨kept.frames, count⟩

/-! ### Where the routes agree -/

/-- All routes admit the same images: both branches of a frame buffer make the same of them, which
keeps or skips each and keeps them in order; a thread keeps the same ones after each image;
and a picture of an encoded image goes on whatever the dimensions declared for it. -/
structure SameImages (decoder : Decoder) (opens : UInt32 → UInt32 → Bool)
    (images : List ImageData) : Prop where
  branches : buildParallel decoder images = buildSequential decoder images
  counted : ∀ threads, (buildFrameBufferStatic decoder threads images).1.frames.length +
    (buildFrameBufferStatic decoder threads images).2 = images.length
  inOrder : ∀ threads, List.Sublist (buildFrameBufferStatic decoder threads images).1.frames
    ((images.filterMap (ImageData.decodeToRgb decoder)).map RgbImage.frame)
  thread : ∀ threads n, (encodingThread decoder opens (images.take n)).frames =
    (buildFrameBufferStatic decoder threads (images.take n)).1.frames
  undeclared : ∀ image ∈ images, image.isEncoded → ∀ picture,
    decoder.decode image.data = some picture →
    (∀ state, sequentialStep decoder state image = addOrSkip state picture) ∧
    decodeParallel decoder image = .ok (some picture) ∧
    (∀ thread : EncodingThread, thread.frame decoder opens image =
      (thread.firstFrame picture).encode opens picture) ∧
    ∀ limits slot, decodeImage decoder limits slot image ≠ .ok none

/-- No encoded image without its dimensions decodes; and where some picture has the bytes of its
size, the first such has the size of the first picture, and a codec opens for it. -/
structure Uniform (decoder : Decoder) (opens : UInt32 → UInt32 → Bool)
    (images : List ImageData) : Prop where
  sized : ∀ image ∈ images, image.isEncoded → image.Unsized → decoder.decode image.data = none
  first : ∀ fitting ∈ (threadPictures decoder images).find? fun picture => picture.Fits,
    ∀ first ∈ (threadPictures decoder images).head?,
      fitting.SameSize first ∧ opens first.width first.height = true

theorem pictures_eq
    (sized : ∀ image ∈ images, image.isEncoded → image.Unsized → decoder.decode image.data = none) :
    bufferPictures decoder images = threadPictures decoder images := by
  refine List.filterMap_congr fun image member => ?_
  unfold bufferPicture threadPicture ImageData.decodeToRgb
  by_cases encoded : image.isEncoded
  · by_cases unsized : image.Unsized
    · simp [encoded, unsized, sized image member encoded unsized]
    · simp [encoded, unsized]
  · simp [encoded]

theorem fittingLike_congr {first other : RgbImage} (same : other.SameSize first) :
    fittingLike other pictures = fittingLike first pictures := by
  refine List.filter_congr fun picture _ => ?_
  have like : picture.SameSize other ↔ picture.SameSize first := by
    unfold RgbImage.SameSize
    rw [same.1, same.2]
  simp only [like]

theorem frame_injective : Function.Injective RgbImage.frame := by
  rintro ⟨w, h, data⟩ ⟨w', h', data'⟩ same
  simpa [RgbImage.frame, VideoFrame.new] using same

/-- Over the same pictures, both keep the same ones exactly if the first fitting picture is of the
size of the first one and its codec opens. -/
theorem kept_eq_iff : keptByThread opens pictures = keptByBuffer pictures ↔
    ∀ fitting ∈ pictures.find? fun picture => picture.Fits, ∀ first ∈ pictures.head?,
      fitting.SameSize first ∧ opens first.width first.height = true := by
  cases pictures with
  | nil => simp [keptByThread, keptByBuffer]
  | cons first rest =>
    unfold keptByThread keptByBuffer
    cases found : (first :: rest).find? fun picture => picture.Fits with
    | none => simp [fittingLike_of_none first found]
    | some fitting =>
      have fits : fitting.Fits := by simpa using List.find?_some found
      have kept : fitting ∈ fittingLike fitting (first :: rest) := by
        refine List.mem_filter.mpr ⟨List.mem_of_find?_eq_some found, ?_⟩
        simp [RgbImage.SameSize, fits]
      simp only [Option.mem_def, Option.some.injEq, forall_eq', List.head?_cons]
      constructor
      · intro same
        have listed : fitting ∈ fittingLike first (first :: rest) := by
          rw [← same] at kept
          split at kept
          · exact kept
          · exact List.mem_of_mem_tail kept
        have like : fitting.SameSize first := by
          have both := (List.mem_filter.mp listed).2
          simp only [decide_eq_true_eq] at both
          exact both.1
        refine ⟨like, ?_⟩
        rw [fittingLike_congr like] at same kept
        by_contra closed
        rw [if_neg closed] at same
        have length := congrArg List.length same
        have := List.length_pos_of_mem kept
        rw [List.length_tail] at length
        omega
      · rintro ⟨like, open_⟩
        rw [if_pos open_, fittingLike_congr like]

theorem bufferPictures_sublist :
    List.Sublist (bufferPictures decoder images) (images.filterMap (ImageData.decodeToRgb decoder)) := by
  unfold bufferPictures
  induction images with
  | nil => exact .slnil
  | cons image images ih =>
    simp only [List.filterMap_cons, bufferPicture]
    split
    · rename_i none_
      split
      · exact ih
      · exact ih.cons _
    · rename_i picture given
      split at given
      · cases given
      · rw [given]
        exact ih.cons_cons _

/-- With its dimensions declared, an encoded image that decodes goes on everywhere. -/
theorem declared_goes_on (sized : ¬image.Unsized) (encoded : image.isEncoded)
    (decoded : decoder.decode image.data = some picture) :
    (∀ state, sequentialStep decoder state image = addOrSkip state picture) ∧
    decodeParallel decoder image = .ok (some picture) ∧
    (∀ thread : EncodingThread, thread.frame decoder opens image =
      (thread.firstFrame picture).encode opens picture) ∧
    ∀ limits slot, decodeImage decoder limits slot image ≠ .ok none := by
  refine ⟨fun state => ?_, ?_, fun thread => ?_, fun limits slot => ?_⟩
  · simp [sequentialStep, sized, encoded, decoded]
  · simp [decodeParallel, sized, encoded, decoded]
  · simp [EncodingThread.frame, ImageData.decodeToRgb, encoded, decoded]
  · unfold decodeImage
    rw [if_neg sized, if_pos encoded, decoded]
    dsimp only
    intro none_
    cases checked : limits.check "Decoded image" picture.width picture.height picture.data.length with
    | error message =>
      rw [checked] at none_
      cases none_
    | ok _ =>
      rw [checked] at none_
      cases none_

theorem Uniform.take (uniform : Uniform decoder opens images) (n : Nat) :
    Uniform decoder opens (images.take n) := by
  refine ⟨fun image member => uniform.sized image (List.mem_of_mem_take member), ?_⟩
  intro fitting found first head
  have split_ : threadPictures decoder images =
      threadPictures decoder (images.take n) ++ threadPictures decoder (images.drop n) := by
    unfold threadPictures
    rw [← List.filterMap_append, List.take_append_drop]
  apply uniform.first
  · rw [split_, List.find?_append, Option.mem_def.mp found]
    rfl
  · rw [split_, List.head?_append, Option.mem_def.mp head]
    rfl

theorem build_frames (decoder : Decoder) (threads : Nat) (images : List ImageData) :
    (buildFrameBufferStatic decoder threads images).1.frames =
      (keptByBuffer (bufferPictures decoder images)).map RgbImage.frame :=
  (build_keeps decoder threads images).1.frames

theorem frames_eq_iff (threads : Nat)
    (same : bufferPictures decoder images = threadPictures decoder images) :
    (encodingThread decoder opens images).frames =
      (buildFrameBufferStatic decoder threads images).1.frames ↔
    ∀ fitting ∈ (threadPictures decoder images).find? fun picture => picture.Fits,
      ∀ first ∈ (threadPictures decoder images).head?,
        fitting.SameSize first ∧ opens first.width first.height = true := by
  rw [(thread_keeps decoder opens images).frames.1, build_frames, same,
    (List.map_injective_iff.mpr frame_injective).eq_iff]
  exact kept_eq_iff

/-- All routes admit the same images exactly if the images are uniform. -/
theorem same_images_iff (decoder : Decoder) (opens : UInt32 → UInt32 → Bool)
    (images : List ImageData) :
    SameImages decoder opens images ↔ Uniform decoder opens images := by
  constructor
  · intro agree
    have sized : ∀ image ∈ images, image.isEncoded → image.Unsized →
        decoder.decode image.data = none := by
      intro image member encoded unsized
      by_contra some_
      obtain ⟨picture, decoded⟩ := Option.ne_none_iff_exists'.mp some_
      have kept := (agree.undeclared image member encoded picture decoded).2.1
      unfold decodeParallel at kept
      rw [if_pos unsized] at kept
      cases kept
    refine ⟨sized, ?_⟩
    have whole := agree.thread 0 images.length
    rw [List.take_length] at whole
    exact (frames_eq_iff 0 (pictures_eq sized)).mp whole
  · intro uniform
    refine ⟨?_, fun threads => ?_, fun threads => ?_, fun threads n => ?_, ?_⟩
    · rw [buildParallel_eq, buildSequential_eq]
    · exact (build_keeps decoder threads images).2
    · rw [build_frames]
      apply List.Sublist.map
      refine List.Sublist.trans ?_ bufferPictures_sublist
      unfold keptByBuffer
      split
      · exact List.nil_sublist _
      · exact List.filter_sublist
    · have part := uniform.take n
      exact (frames_eq_iff threads (pictures_eq part.sized)).mpr part.first
    · intro image member encoded picture decoded
      refine declared_goes_on (fun unsized => ?_) encoded decoded
      rw [uniform.sized image member encoded unsized] at decoded
      cases decoded

/-- A decoder that takes all bytes for a black pixel. -/
def blackPixel : Decoder where
  decode _ := some ⟨1, 1, [0, 0, 0]⟩
  true_ := by
    intro bytes picture decoded
    obtain rfl := Option.some.inj decoded
    exact ⟨by decide, by decide, by decide⟩

/-- The thread keeps a compressed image whose header gives no dimensions, the frame buffer not. -/
theorem undeclared_image_dropped : ∃ decoder opens images, ¬SameImages decoder opens images := by
  refine ⟨blackPixel, fun _ _ => true, [⟨0, 0, [], true⟩], fun agree => ?_⟩
  have frames := congrArg List.length (agree.thread 0 1)
  revert frames
  decide

end Roboflow.Media
