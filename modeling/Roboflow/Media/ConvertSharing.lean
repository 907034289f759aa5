import Roboflow.Media.ConvertPool

/-! What a conversion gives, against the owners of a frame's buffer and the company the frame is
converted in. The routes differ in the length they ask for: a copy and a batch want exactly the
pixels, the conversion in place lets more bytes follow. A batch it refuses is converted frame by
frame, so that the routes of a worker agree. -/
namespace Roboflow.Media

/-! ### Outcomes -/

/-- What can be told of a result when its error is not read. -/
def outcome {α : Type} (result : Option (Except String α)) : Option (Option α) :=
  result.map Except.toOption

/-- What the encoder reads of a frame. -/
structure Shown where
  width : UInt32
  height : UInt32
  format : FrameFormat
  data : List UInt8
  deriving DecidableEq

def ConvertedFrameZeroCopy.shown (converted : ConvertedFrameZeroCopy) : Shown :=
  let frame := converted.toVideoFrame
  ⟨frame.width, frame.height, frame.format, frame.data⟩

/-- The outcomes of the frames as one: all of them in order, or the first that is no frame. -/
def gathered {α : Type} : List (Option (Option α)) → Option (Option (List α))
  | [] => some (some [])
  | none :: _ => none
  | some none :: _ => some none
  | some (some shown) :: outcomes => (gathered outcomes).map fun others => others.map (shown :: ·)

/-- The outcome of converting where the length of the data is `accepted`, and the planes fit. -/
def outcomeWhen {α : Type} (format : Format) (accepted : Prop) [Decidable accepted]
    (width height : Nat) (made : α) : Option (Option α) :=
  if ¬accepted ∨ dimensionError format width height ≠ none then some none
  else if width * height * 3 < 2 ^ 64 then some (some made)
  else none

section
variable {α : Type} {format : Format} {accepted : Prop} [Decidable accepted] {width height : Nat}
  {made : α}

theorem outcomeWhen_refused (no : ¬accepted ∨ dimensionError format width height ≠ none) :
    outcomeWhen format accepted width height made = some none := if_pos no

theorem outcomeWhen_inv {seen : Option (Option α)}
    (given : outcomeWhen format accepted width height made = seen) (sound : seen ≠ some none) :
    accepted ∧ dimensionError format width height = none := by
  have yes := mt outcomeWhen_refused (given ▸ sound)
  push Not at yes
  exact yes

theorem outcomeWhen_accepted (yes : accepted) (sound : dimensionError format width height = none) :
    outcomeWhen format accepted width height made =
      if width * height * 3 < 2 ^ 64 then some (some made) else none :=
  if_neg (not_or.2 ⟨not_not.2 yes, not_not.2 sound⟩)

end

theorem dimensionError_none {format : Format} {width height : Nat} :
    dimensionError format width height = none ↔
      width % 2 = 0 ∧ height % 2 = 0 ∧ width ≠ 0 ∧ height ≠ 0 := by
  unfold dimensionError
  split
  · rename_i odd
    simp only [reduceCtorEq, false_iff]
    omega
  · rename_i even
    split
    · rename_i empty
      simp only [reduceCtorEq, false_iff]
      omega
    · simp only [true_iff]
      omega

/-- Without room for the planes there is an error or nothing. -/
theorem oversized_outcome {α : Type} {format : Format} {width height : Nat} {refused : Option String}
    {accepted : Prop} [Decidable accepted] (large : ¬width * height * 3 < 2 ^ 64)
    (agrees : refused = none ↔ accepted) (made : α) :
    outcome (oversized (α := α) format width height refused) =
      outcomeWhen format accepted width height made := by
  unfold oversized outcomeWhen
  rw [if_neg large]
  cases refused with
  | some message =>
    have no : ¬accepted := by simp [← agrees]
    simp [no, outcome, Except.toOption]
  | none =>
    have yes : accepted := by simp [← agrees]
    cases dimensionError format width height <;> simp [yes, outcome, Except.toOption]

theorem mismatch_none {frames : List (List UInt8)} {size : Nat} :
    frames.zipIdx.find? (fun frame => frame.1.length ≠ size) = none ↔
      ∀ rgb ∈ frames, rgb.length = size := by
  rw [List.find?_eq_none]
  constructor
  · intro none_ rgb member
    obtain ⟨i, inside, rfl⟩ := List.mem_iff_getElem.1 member
    simpa using none_ (frames[i], i) (by simp [List.mem_zipIdx_iff_getElem?])
  · intro all frame member
    simpa using all _ (List.fst_mem_of_mem_zipIdx member)

section
variable (arch : TargetArch) (strategy : ConversionStrategy)

theorem planesOf_outcome (format : Format) (rgb : List UInt8) (width height : Nat) :
    outcome (planesOf arch strategy format rgb width height) =
      outcomeWhen format (rgb.length = width * height * 3 % 2 ^ 64) width height
        (rendered (roundingOf arch strategy) format rgb width height) := by
  unfold planesOf
  by_cases fits : width * height * 3 < 2 ^ 64
  · rw [Nat.mod_eq_of_lt fits, if_pos fits]
    unfold outcomeWhen
    rw [if_pos fits]
    by_cases size : rgb.length = width * height * 3
    · cases refused : dimensionError format width height with
      | some message => simp [convert, size, refused, outcome, Except.toOption]
      | none =>
        obtain ⟨evenWidth, evenHeight, wide, high⟩ := dimensionError_none.1 refused
        rw [convert_eq size evenWidth evenHeight wide high]
        simp [size, outcome, Except.toOption]
    · simp [convert, size, outcome, Except.toOption]
  · rw [if_neg fits]
    apply oversized_outcome fits
    split <;> simp_all

/-- The bytes of the frame in the NV12 layout. -/
def nv12Bytes (planes : Planes) : List UInt8 := planes .y ++ planes .uv

theorem planesInPlace_outcome (buffer : List UInt8) (width height : Nat) :
    let pixels := buffer.take (width * height * 3)
    let made := nv12Bytes (rendered (roundingOf arch strategy) .nv12 pixels width height)
    outcome (planesInPlace arch strategy buffer width height) =
      outcomeWhen .nv12 (width * height * 3 % 2 ^ 64 ≤ buffer.length) width height
        (made.length, made ++ buffer.drop made.length) := by
  intro pixels made
  unfold planesInPlace
  by_cases fits : width * height * 3 < 2 ^ 64
  · rw [Nat.mod_eq_of_lt fits, if_pos fits]
    unfold outcomeWhen
    rw [if_pos fits]
    by_cases size : width * height * 3 ≤ buffer.length
    · have enough : ¬buffer.length < width * height * 3 := by omega
      cases refused : dimensionError .nv12 width height with
      | some message => simp [rgbToNv12InPlace, enough, refused, outcome, Except.toOption]
      | none =>
        obtain ⟨evenWidth, evenHeight, wide, high⟩ := dimensionError_none.1 refused
        have exact_ : pixels.length = width * height * 3 := by simp [pixels, size]
        have ran := inPlace_eq exact_ evenWidth evenHeight wide high arch strategy
          (buffer.drop (width * height * 3)) _ rfl
        rw [List.take_append_drop] at ran
        rw [ran]
        simp [size, outcome, Except.toOption, made, nv12Bytes]
    · have short : buffer.length < width * height * 3 := by omega
      simp [rgbToNv12InPlace, size, short, outcome, Except.toOption]
  · rw [if_neg fits]
    apply oversized_outcome fits
    split <;> simp_all

theorem planesOfBatch_outcome {frames : List (List UInt8)} (some_ : frames ≠ [])
    (width height : Nat) :
    outcome (planesOfBatch arch strategy frames width height) =
      outcomeWhen .nv12 (∀ rgb ∈ frames, rgb.length = width * height * 3 % 2 ^ 64) width height
        (frames.map fun rgb => rendered (roundingOf arch strategy) .nv12 rgb width height) := by
  unfold planesOfBatch
  by_cases fits : width * height * 3 < 2 ^ 64
  · rw [Nat.mod_eq_of_lt fits, if_pos (.inl fits)]
    unfold outcomeWhen
    rw [if_pos fits]
    cases mismatched : frames.zipIdx.find? (fun frame => frame.1.length ≠ width * height * 3) with
    | some frame =>
      have sizes : ¬∀ rgb ∈ frames, rgb.length = width * height * 3 := by
        rw [← mismatch_none, mismatched]
        simp
      rw [if_pos (.inl sizes), batch, if_neg some_]
      simp only [mismatched, outcome, Option.map_some, Except.toOption]
    | none =>
      have sizes := mismatch_none.1 mismatched
      cases refused : dimensionError .nv12 width height with
      | some message =>
        rw [if_pos (.inr (by simp)), batch, if_neg some_]
        simp only [mismatched, refused, outcome, Option.map_some, Except.toOption]
      | none =>
        obtain ⟨evenWidth, evenHeight, wide, high⟩ := dimensionError_none.1 refused
        rw [batch_eq sizes evenWidth evenHeight wide high, if_neg (by simpa using sizes)]
        rfl
  · rw [if_neg (not_or.2 ⟨fits, some_⟩)]
    apply oversized_outcome fits
    rw [Option.map_eq_none_iff]
    exact mismatch_none

/-! ### One frame -/

/-- What is shown of one frame's result. -/
def shownOf (result : Option (Except String ConvertedFrameZeroCopy)) : Option (Option Shown) :=
  (outcome result).map fun converted => converted.map ConvertedFrameZeroCopy.shown

theorem shownOf_map {α : Type} (f : α → ConvertedFrameZeroCopy)
    (result : Option (Except String α)) :
    shownOf (result.map fun made => made.map f) =
      (outcome result).map fun made => made.map fun x => (f x).shown := by
  rcases result with _ | _ | made <;> rfl

theorem outcomeWhen_map {α β : Type} (f : α → β) (format : Format) (accepted : Prop)
    [Decidable accepted] (width height : Nat) (made : α) :
    (outcomeWhen format accepted width height made).map (fun made => made.map f) =
      outcomeWhen format accepted width height (f made) := by
  unfold outcomeWhen
  split
  · rfl
  · split <;> rfl

/-- The front of the buffer is all that is left of it. -/
theorem overwritten_data (buffer : FrameBuffer) (made rest : List UInt8) (format : PixelFormat) :
    (((buffer.overwrite (made ++ rest)).setFormat format).setLen made.length).data = made := by
  unfold FrameBuffer.overwrite FrameBuffer.setLen FrameBuffer.data FrameBuffer.capacity
  cases buffer.inner <;> simp [FrameBuffer.setFormat, FrameBufferInner.bytes]

theorem owned_shown (data : List UInt8) (format : PixelFormat) (width height : UInt32) :
    ConvertedFrameZeroCopy.shown (.inPlace (.fromOwned data format width height)) =
      ⟨width, height, format.frameFormat, data⟩ := by
  simp [ConvertedFrameZeroCopy.shown, ConvertedFrameZeroCopy.toVideoFrame,
    VideoFrame.fromArcFrameBuffer, VideoFrame.data, FrameBuffer.fromOwned, FrameBuffer.data,
    FrameBufferInner.bytes]

theorem copied_shown (frame : DecodedFrame)
    (copied : frame.buffer.format ≠ .rgb24 ∨ frame.shared = true) :
    let width := frame.buffer.width
    let height := frame.buffer.height
    let data := frame.buffer.data
    shownOf (TargetFormat.nv12.convertZeroCopy arch strategy frame) =
      outcomeWhen .nv12 (data.length = width.toNat * height.toNat * 3 % 2 ^ 64) width.toNat
        height.toNat ⟨width, height, .nv12, nv12Bytes
          (rendered (roundingOf arch strategy) .nv12 data width.toNat height.toNat)⟩ := by
  intro width height data
  have route : ¬(frame.buffer.format = .rgb24 ∧ (!frame.shared) = true) := by
    rintro ⟨rgb, alone⟩
    rcases copied with other | held
    · exact other rgb
    · simp [held] at alone
  unfold TargetFormat.convertZeroCopy
  simp only [if_neg route]
  rw [shownOf_map, planesOf_outcome, outcomeWhen_map]
  simp only [owned_shown]
  rfl

theorem inPlace_shown (buffer : FrameBuffer) (rgb : buffer.format = .rgb24) :
    let width := buffer.width
    let height := buffer.height
    let pixels := buffer.data.take (width.toNat * height.toNat * 3)
    shownOf (TargetFormat.nv12.convertZeroCopy arch strategy ⟨buffer, false⟩) =
      outcomeWhen .nv12 (width.toNat * height.toNat * 3 % 2 ^ 64 ≤ buffer.data.length) width.toNat
        height.toNat ⟨width, height, .nv12, nv12Bytes
          (rendered (roundingOf arch strategy) .nv12 pixels width.toNat height.toNat)⟩ := by
  intro width height pixels
  unfold TargetFormat.convertZeroCopy
  simp only [rgb, Bool.not_false, and_self, ↓reduceIte]
  rw [shownOf_map, planesInPlace_outcome, outcomeWhen_map]
  simp only [ConvertedFrameZeroCopy.shown, ConvertedFrameZeroCopy.toVideoFrame,
    VideoFrame.fromArcFrameBuffer, VideoFrame.data, overwritten_data]
  unfold FrameBuffer.overwrite
  cases buffer.inner <;> rfl

/-- Where only a buffer in use elsewhere matters: pixels the planes of NV12 are made of, with more
bytes behind them. -/
def Padded (target : TargetFormat) (buffer : FrameBuffer) : Prop :=
  let width := buffer.width.toNat
  let height := buffer.height.toNat
  target = .nv12 ∧ buffer.format = .rgb24 ∧ width * height * 3 % 2 ^ 64 < buffer.data.length ∧
    dimensionError .nv12 width height = none

theorem sharing_iff (target : TargetFormat) (buffer : FrameBuffer) :
    shownOf (target.convertZeroCopy arch strategy ⟨buffer, false⟩) =
        shownOf (target.convertZeroCopy arch strategy ⟨buffer, true⟩) ↔ ¬Padded target buffer := by
  cases target with
  | yuv420p => simp [Padded, TargetFormat.convertZeroCopy]
  | nv12 =>
    by_cases rgb : buffer.format = .rgb24
    · have alone := inPlace_shown arch strategy buffer rgb
      have held := copied_shown arch strategy ⟨buffer, true⟩ (.inr rfl)
      simp only at alone held
      rw [alone, held]
      by_cases sound : dimensionError .nv12 buffer.width.toNat buffer.height.toNat = none
      · rcases Nat.lt_trichotomy buffer.data.length
          (buffer.width.toNat * buffer.height.toNat * 3 % 2 ^ 64) with short | size | long
        · rw [outcomeWhen_refused (.inl (not_le.2 short)), outcomeWhen_refused (.inl short.ne)]
          exact iff_of_true rfl fun padded => absurd padded.2.2.1 (not_lt.2 short.le)
        · rw [outcomeWhen_accepted size.ge sound, outcomeWhen_accepted size sound]
          refine iff_of_true ?_ fun padded => absurd padded.2.2.1 (not_lt.2 size.le)
          split
          · rename_i fits
            rw [Nat.mod_eq_of_lt fits] at size
            rw [← size, List.take_length]
          · rfl
        · rw [outcomeWhen_accepted long.le sound, outcomeWhen_refused (.inl long.ne')]
          refine iff_of_false ?_ fun whole => whole ⟨rfl, rgb, long, sound⟩
          split <;> simp
      · rw [outcomeWhen_refused (.inr sound), outcomeWhen_refused (.inr sound)]
        exact iff_of_true rfl fun padded => sound padded.2.2.2
    · simp [Padded, rgb, TargetFormat.convertZeroCopy]

/-! ### A batch -/

/-- What is shown of the result of a command. -/
def batchShown (result : Option (Except String (List ConvertedFrameZeroCopy))) :
    Option (Option (List Shown)) :=
  (outcome result).map fun converted => converted.map (List.map ConvertedFrameZeroCopy.shown)

theorem convertEach_gathered (target : TargetFormat) (zeroCopy : Bool) (frames : List DecodedFrame) :
    batchShown (target.convertEach arch strategy zeroCopy frames) =
      gathered (frames.map fun frame =>
        shownOf (target.convertOne arch strategy zeroCopy frame)) := by
  induction frames with
  | nil => rfl
  | cons frame frames ih =>
    rw [List.map_cons, TargetFormat.convertEach]
    rcases target.convertOne arch strategy zeroCopy frame with _ | _ | converted
    · rfl
    · rfl
    · have rest := congrArg (Option.map fun others => others.map (converted.shown :: ·)) ih
      refine Eq.trans ?_ rest
      rcases target.convertEach arch strategy zeroCopy frames with _ | _ | _ <;> rfl

theorem gathered_all {α β : Type} (f : α → β) (frames : List α) :
    gathered (frames.map fun frame => some (some (f frame))) = some (some (frames.map f)) := by
  induction frames with
  | nil => rfl
  | cons frame frames ih => simp only [List.map_cons, gathered, ih, Option.map_some]

/-- A frame of exactly its pixels is converted like one that is copied. -/
theorem whole_shown (frame : DecodedFrame) (whole : frame.buffer.data.length =
      frame.buffer.width.toNat * frame.buffer.height.toNat * 3 % 2 ^ 64) :
    let width := frame.buffer.width
    let height := frame.buffer.height
    shownOf (TargetFormat.nv12.convertOne arch strategy true frame) =
      outcomeWhen .nv12 True width.toNat height.toNat ⟨width, height, .nv12, nv12Bytes
        (rendered (roundingOf arch strategy) .nv12 frame.buffer.data width.toNat height.toNat)⟩ := by
  intro width height
  have copied := copied_shown arch strategy ⟨frame.buffer, true⟩ (.inr rfl)
  have sharing := (sharing_iff arch strategy .nv12 frame.buffer).2
    fun padded => absurd padded.2.2.1 (not_lt.2 whole.le)
  simp only [whole] at copied
  have same : TargetFormat.nv12.convertOne arch strategy true frame =
      TargetFormat.nv12.convertZeroCopy arch strategy frame := if_pos rfl
  rw [same, ← copied]
  obtain ⟨buffer, shared⟩ := frame
  cases shared with
  | false => exact sharing
  | true => rfl

theorem batched_shown {frames : List DecodedFrame} {width height : UInt32}
    (same : ∀ frame ∈ frames, frame.buffer.width = width ∧ frame.buffer.height = height)
    (some_ : frames ≠ []) (sizes : ∀ frame ∈ frames,
      frame.buffer.data.length = width.toNat * height.toNat * 3 % 2 ^ 64)
    (sound : dimensionError .nv12 width.toNat height.toNat = none) :
    gathered (frames.map fun frame =>
        shownOf (TargetFormat.nv12.convertOne arch strategy true frame)) =
      outcomeWhen .nv12 True width.toNat height.toNat (frames.map fun frame =>
        ⟨width, height, .nv12, nv12Bytes (rendered (roundingOf arch strategy) .nv12
          frame.buffer.data width.toNat height.toNat)⟩) := by
  have each : ∀ frame ∈ frames,
      shownOf (TargetFormat.nv12.convertOne arch strategy true frame) =
        if width.toNat * height.toNat * 3 < 2 ^ 64 then
          some (some ⟨width, height, .nv12, nv12Bytes (rendered (roundingOf arch strategy) .nv12
            frame.buffer.data width.toNat height.toNat)⟩)
        else none := by
    intro frame member
    obtain ⟨wide, high⟩ := same frame member
    subst wide high
    rw [whole_shown arch strategy frame (sizes frame member)]
    exact outcomeWhen_accepted trivial sound
  rw [List.map_congr_left each, outcomeWhen_accepted trivial sound]
  split
  · exact gathered_all _ frames
  · obtain ⟨first, others, rfl⟩ := List.exists_cons_of_ne_nil some_
    rfl

theorem convertFrames_gathered (target : TargetFormat) (zeroCopy : Bool)
    (frames : List DecodedFrame) :
    batchShown (target.convertFrames arch strategy zeroCopy frames) =
      gathered (frames.map fun frame =>
        shownOf (target.convertOne arch strategy zeroCopy frame)) := by
  have each := convertEach_gathered arch strategy target zeroCopy frames
  rcases frames with _ | ⟨first, _ | ⟨second, others⟩⟩
  · exact each
  · exact each
  · unfold TargetFormat.convertFrames
    simp only
    split
    · rename_i batched
      obtain ⟨rfl, rfl, alike⟩ := batched
      generalize whole : first :: second :: others = frames at *
      have some_ : frames ≠ [] := by simp [← whole]
      have same : ∀ frame ∈ frames,
          frame.buffer.width = first.buffer.width ∧ frame.buffer.height = first.buffer.height := by
        simpa using alike
      have made := planesOfBatch_outcome arch strategy
        (mt List.map_eq_nil_iff.1 some_ : frames.map (·.buffer.data) ≠ [])
        first.buffer.width.toNat first.buffer.height.toNat
      simp only [List.forall_mem_map, List.map_map] at made
      rcases ran : planesOfBatch arch strategy (frames.map (·.buffer.data))
        first.buffer.width.toNat first.buffer.height.toNat with _ | _ | results
      · rw [ran] at made
        obtain ⟨sizes, sound⟩ := outcomeWhen_inv made.symm (by simp [outcome])
        rw [batched_shown arch strategy same some_ sizes sound, outcomeWhen_accepted trivial sound]
        rw [outcomeWhen_accepted sizes sound] at made
        split at made
        · cases made
        · rename_i large
          simp only [if_neg large, ran]
          rfl
      · simp only [ran]
        exact each
      · rw [ran] at made
        obtain ⟨sizes, sound⟩ := outcomeWhen_inv made.symm (by simp [outcome, Except.toOption])
        rw [batched_shown arch strategy same some_ sizes sound, outcomeWhen_accepted trivial sound]
        rw [outcomeWhen_accepted sizes sound] at made
        split at made
        · rename_i fits
          have drawn : results = _ := Option.some.inj (Option.some.inj made)
          have paired : (results.zip frames).map Prod.fst = results :=
            List.map_fst_zip (by simp [drawn])
          simp only [if_pos fits, ran]
          refine congrArg (fun shown => some (some shown)) ?_
          calc ((results.zip frames).map _).map ConvertedFrameZeroCopy.shown
              = ((results.zip frames).map Prod.fst).map fun planes =>
                  ⟨first.buffer.width, first.buffer.height, .nv12, nv12Bytes planes⟩ := by
                rw [List.map_map, List.map_map]
                exact List.map_congr_left fun pair _ => owned_shown ..
            _ = _ := by
                rw [paired, drawn, List.map_map]
                rfl
        · cases made
    · exact each

/-- Owners matter for a padded frame only, and the frames beside a frame not at all. -/
theorem conversion_sharing_iff :
    (∀ (target : TargetFormat) (buffer : FrameBuffer),
      shownOf (target.convertZeroCopy arch strategy ⟨buffer, false⟩) =
          shownOf (target.convertZeroCopy arch strategy ⟨buffer, true⟩) ↔
        ¬Padded target buffer) ∧
      ∀ (target : TargetFormat) (zeroCopy : Bool) (frames : List DecodedFrame),
        batchShown (target.convertFrames arch strategy zeroCopy frames) =
          gathered (frames.map fun frame =>
            shownOf (target.convertOne arch strategy zeroCopy frame)) :=
  ⟨sharing_iff arch strategy, convertFrames_gathered arch strategy⟩

end

/-- Four black pixels and one byte of padding: NV12 from a buffer with one owner, an error from one
with two. -/
theorem padded_frame_refused :
    let buffer : FrameBuffer := .fromArena (List.replicate 16 0) .rgb24 2 2 13
    (∀ (arch : TargetArch) (strategy : ConversionStrategy),
      shownOf (TargetFormat.nv12.convertZeroCopy arch strategy ⟨buffer, false⟩) =
        some (some ⟨2, 2, .nv12, [0, 0, 0, 0, 128, 128]⟩)) ∧
      ∀ (arch : TargetArch) (strategy : ConversionStrategy),
        shownOf (TargetFormat.nv12.convertZeroCopy arch strategy ⟨buffer, true⟩) = some none := by
  intro buffer
  constructor
  · intro arch strategy
    rw [inPlace_shown arch strategy buffer rfl]
    cases arch <;> cases strategy <;> decide
  · intro arch strategy
    rw [copied_shown arch strategy ⟨buffer, true⟩ (.inr rfl)]
    exact outcomeWhen_refused (.inl (by decide))

end Roboflow.Media
