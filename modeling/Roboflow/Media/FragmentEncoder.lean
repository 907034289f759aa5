import Roboflow.Library.Machine
import Roboflow.Lerobot.VideoBuffers

/-! The fragment encoder of `video/fragment.rs`. A fragment's own `VideoEncoder` writes the
frames it is given to a file of the temporary directory, or fails at any point and leaves
there what it has written so far. -/
namespace Roboflow.Media
open Library
open Roboflow.Lerobot (padded padded_injective)

abbrev RgbFrame := List UInt8

/-- The seconds of `max_duration_secs` are floating point: they are kept as the frame
counts that reach them at a frame rate. -/
structure FragmentConfig where
  maxFrames : Option Nat
  maxMemoryBytes : Option Nat
  maxDurationSecs : Option (Nat → ℕ+ → Bool)

/-- What the encoder of one fragment does. -/
inductive FragmentEncode where
  | writes
  | fails (message : String) (left : Option (List RgbFrame))

/-- The counters are a `u32` and a `u64`. -/
structure FragmentEncoder where
  fragmentConfig : FragmentConfig
  width : Nat
  height : Nat
  fps : ℕ+
  frameBuffer : List RgbFrame
  frameCount : Nat
  totalFrames : Nat
  fragmentPaths : List String
  tempDir : Kv String (List RgbFrame)
  finalized : Bool

/-- Below the temporary directory. -/
def fragmentPath (index : Nat) : String := "fragment_" ++ padded 4 index ++ ".mp4"

namespace FragmentEncoder

def opened (fragmentConfig : FragmentConfig) (fps : ℕ+) : FragmentEncoder where
  fragmentConfig := fragmentConfig
  width := 0
  height := 0
  fps := fps
  frameBuffer := []
  frameCount := 0
  totalFrames := 0
  fragmentPaths := []
  tempDir := .empty
  finalized := false

def new (fragmentConfig : FragmentConfig) (fps : Nat) : Except String FragmentEncoder :=
  if positive : 0 < fps then .ok (opened fragmentConfig ⟨fps, positive⟩)
  else .error "fps must be positive for duration-based flush calculations"

def bufferedBytes (e : FragmentEncoder) : Nat := (e.frameBuffer.map List.length).sum

def shouldFlush (e : FragmentEncoder) : Bool :=
  e.fragmentConfig.maxFrames.any (fun maxFrames => maxFrames ≤ e.frameCount) ||
    e.fragmentConfig.maxMemoryBytes.any (fun maxBytes => maxBytes ≤ e.bufferedBytes) ||
    e.fragmentConfig.maxDurationSecs.any fun reached => reached e.frameCount e.fps

def flushFragment (e : FragmentEncoder) (encode : FragmentEncode) :
    Except String Unit × FragmentEncoder :=
  if e.frameBuffer.isEmpty then (.ok (), e)
  else
    let path := fragmentPath e.fragmentPaths.length
    match encode with
    | .fails message left =>
      (.error message, { e with tempDir := left.elim e.tempDir (e.tempDir.put path) })
    | .writes =>
      (.ok (), { e with
        tempDir := e.tempDir.put path e.frameBuffer
        frameBuffer := []
        frameCount := 0
        fragmentPaths := e.fragmentPaths ++ [path] })

/-- The product is a `usize`. -/
def expectedSize (width height : Nat) : Nat := width * height * 3 % 2 ^ 64

/-- What is wrong with a frame; the first one sets the size of all. -/
def refuses (e : FragmentEncoder) (rgbData : RgbFrame) (width height : Nat) : Option String :=
  if e.finalized then some "Cannot encode frame after finalization"
  else if width = 0 ∨ height = 0 then some "Frame dimensions cannot be zero"
  else if rgbData.length ≠ expectedSize width height then
    some ("RGB data size mismatch: got " ++ toString rgbData.length ++ " bytes, expected " ++
      toString (expectedSize width height) ++ " bytes for " ++ toString width ++ "x" ++
      toString height)
  else if e.width ≠ 0 ∧ (width ≠ e.width ∨ height ≠ e.height) then
    some ("Frame dimension mismatch: expected " ++ toString e.width ++ "x" ++ toString e.height ++
      ", got " ++ toString width ++ "x" ++ toString height)
  else none

/-- The frame buffered and counted. -/
def buffered (e : FragmentEncoder) (rgbData : RgbFrame) (width height : Nat) : FragmentEncoder :=
  { e with
    width := if e.width = 0 then width else e.width
    height := if e.width = 0 then height else e.height
    frameBuffer := e.frameBuffer ++ [rgbData]
    frameCount := (e.frameCount + 1) % 2 ^ 32
    totalFrames := (e.totalFrames + 1) % 2 ^ 64 }

/-- `encode_frame`, with the encoder it leaves on a failure too. -/
def encodeFrame (e : FragmentEncoder) (rgbData : RgbFrame) (width height : Nat)
    (encode : FragmentEncode) : Except String Bool × FragmentEncoder :=
  match e.refuses rgbData width height with
  | some message => (.error message, e)
  | none =>
    let e := e.buffered rgbData width height
    if e.shouldFlush then
      match e.flushFragment encode with
      | (.error message, e) => (.error message, e)
      | (.ok (), e) => (.ok true, e)
    else (.ok false, e)

/-- The frames of the fragments tracked so far, in order. -/
def produced (e : FragmentEncoder) : List (List RgbFrame) :=
  e.fragmentPaths.map fun path => (e.tempDir.get path).getD []

end FragmentEncoder

/-! ### Calls and what they account for -/

inductive FragmentCall where
  | encodeFrame (rgbData : RgbFrame) (width height : Nat) (encode : FragmentEncode)
  | flush (encode : FragmentEncode)

def FragmentEncoder.call (e : FragmentEncoder) : FragmentCall → Except String Bool × FragmentEncoder
  | .encodeFrame rgbData width height encode => e.encodeFrame rgbData width height encode
  | .flush encode => ((e.flushFragment encode).1.map fun _ => true, (e.flushFragment encode).2)

/-- An encoder under any calls, with their results. -/
def fragmentEncoder : Machine FragmentEncoder FragmentCall (Except String Bool) where
  step e call := some ((e.call call).2, (e.call call).1)

abbrev FragmentHistory := History FragmentEncoder FragmentCall (Except String Bool)

/-- The frame a call takes, if it is an `encode_frame` that returns `Ok`. -/
def taken : FragmentCall → Except String Bool → List RgbFrame
  | .encodeFrame rgbData _ _ _, .ok _ => [rgbData]
  | _, _ => []

/-- The frames whose `encode_frame` returned `Ok`, oldest first. -/
def acceptedFrames : FragmentHistory → List RgbFrame
  | [] => []
  | step :: older => acceptedFrames older ++ taken step.act step.out

/-- A failed `encode_frame` leaves the encoder as it was. -/
def Unchanged (e : FragmentEncoder) : FragmentCall → Except String Bool → FragmentEncoder → Prop
  | .encodeFrame _ _ _ _, .error _, e' => e' = e
  | _, _, _ => True

/-- Fragments, buffer, counters and indices are those of the frames accepted so far. -/
structure FramesAccounted (history : FragmentHistory) (e : FragmentEncoder) : Prop where
  frames : e.produced.flatten ++ e.frameBuffer = acceptedFrames history
  total : e.totalFrames = (acceptedFrames history).length
  count : e.frameCount = e.frameBuffer.length
  indices : e.fragmentPaths = (List.range e.fragmentPaths.length).map fragmentPath
  unchanged : ∀ step ∈ history, Unchanged step.pre step.act step.out step.post

/-- Where a frame is accepted into the buffer, the fragment it fills is written, and the
counters do not run over. -/
def Undisturbed (e : FragmentEncoder) : FragmentCall → Prop
  | .encodeFrame rgbData width height encode =>
    e.refuses rgbData width height = none →
      e.totalFrames + 1 < 2 ^ 64 ∧
      if (e.buffered rgbData width height).shouldFlush then encode = .writes
      else e.frameCount + 1 < 2 ^ 32
  | .flush _ => True

namespace FragmentEncoder

variable {e : FragmentEncoder} {rgbData : RgbFrame} {width height : Nat}

/-- The fragments are numbered from zero, each in the file of its number. -/
def Numbered (e : FragmentEncoder) : Prop :=
  e.fragmentPaths = (List.range e.fragmentPaths.length).map fragmentPath

theorem fragmentPath_injective (same : fragmentPath i = fragmentPath j) : i = j := by
  have lists := congrArg String.toList same
  simp only [fragmentPath, String.toList_append] at lists
  have digits := List.append_cancel_left (List.append_cancel_right lists)
  exact padded_injective (String.toList_injective digits)

theorem Numbered.fresh (numbered : e.Numbered) :
    fragmentPath e.fragmentPaths.length ∉ e.fragmentPaths := by
  intro member
  rw [numbered] at member
  obtain ⟨i, inside, same⟩ := List.mem_map.mp member
  have number := fragmentPath_injective same
  rw [List.length_map, List.length_range] at number
  exact absurd (List.mem_range.mp inside) (by omega)

/-- What is put at the next fragment's path is not seen in the fragments before it. -/
theorem Numbered.get_put (numbered : e.Numbered) (frames : List RgbFrame) :
    (e.fragmentPaths.map fun path =>
      ((e.tempDir.put (fragmentPath e.fragmentPaths.length) frames).get path).getD []) =
      e.produced := by
  refine List.map_congr_left fun path member => ?_
  have other : path ≠ fragmentPath e.fragmentPaths.length := fun same =>
    numbered.fresh (same ▸ member)
  rw [Kv.get_put_ne _ other]

/-- A flush that fails takes nothing away and produces nothing. -/
theorem flushFragment_fails (numbered : e.Numbered)
    (failed : (e.flushFragment encode).1 = .error message) :
    (e.flushFragment encode).2.produced = e.produced ∧
    (e.flushFragment encode).2.frameBuffer = e.frameBuffer ∧
    (e.flushFragment encode).2.frameCount = e.frameCount ∧
    (e.flushFragment encode).2.totalFrames = e.totalFrames ∧
    (e.flushFragment encode).2.fragmentPaths = e.fragmentPaths := by
  unfold flushFragment at failed ⊢
  split at failed
  · cases failed
  · rename_i some_
    rw [if_neg some_]
    cases encode with
    | writes => cases failed
    | fails message left =>
      refine ⟨?_, rfl, rfl, rfl, rfl⟩
      cases left with
      | none => rfl
      | some frames => exact numbered.get_put frames

/-- A written buffer is the next fragment. -/
theorem flushFragment_writes (numbered : e.Numbered) (some_ : e.frameBuffer ≠ []) :
    (e.flushFragment .writes).1 = .ok () ∧
    (e.flushFragment .writes).2.produced = e.produced ++ [e.frameBuffer] ∧
    (e.flushFragment .writes).2.frameBuffer = [] ∧
    (e.flushFragment .writes).2.frameCount = 0 ∧
    (e.flushFragment .writes).2.totalFrames = e.totalFrames ∧
    (e.flushFragment .writes).2.Numbered := by
  have notEmpty : ¬ e.frameBuffer.isEmpty := by simpa using some_
  rw [flushFragment, if_neg notEmpty]
  refine ⟨rfl, ?_, rfl, rfl, rfl, ?_⟩
  · simp only [produced, List.map_append, List.map_cons, List.map_nil, Kv.get_put_self,
      Option.getD_some, numbered.get_put]
  · simp only [Numbered, List.length_append, List.length_singleton, List.range_succ,
      List.map_append, List.map_cons, List.map_nil]
    rw [← numbered]

end FragmentEncoder

/-! ### Accounting -/

variable {e e' : FragmentEncoder} {history : FragmentHistory} {out : Except String Bool}

/-- Nothing taken, and everything the property speaks of as before. -/
theorem FramesAccounted.kept (before : FramesAccounted history e) {c : FragmentCall}
    (nothing : taken c out = []) (produced : e'.produced = e.produced)
    (frameBuffer : e'.frameBuffer = e.frameBuffer) (frameCount : e'.frameCount = e.frameCount)
    (totalFrames : e'.totalFrames = e.totalFrames) (paths : e'.fragmentPaths = e.fragmentPaths)
    (unchanged : Unchanged e c out e') : FramesAccounted (⟨e, c, out, e'⟩ :: history) e' where
  frames := by
    rw [produced, frameBuffer, acceptedFrames, nothing, List.append_nil]
    exact before.frames
  total := by
    rw [totalFrames, acceptedFrames, nothing, List.append_nil]
    exact before.total
  count := by
    rw [frameCount, frameBuffer]
    exact before.count
  indices := by
    rw [paths]
    exact before.indices
  unchanged := List.forall_mem_cons.mpr ⟨unchanged, before.unchanged⟩

theorem FramesAccounted.flush (before : FramesAccounted history e) (encode : FragmentEncode) :
    FramesAccounted (⟨e, .flush encode, (e.call (.flush encode)).1, (e.call (.flush encode)).2⟩ :: history)
      (e.call (.flush encode)).2 := by
  by_cases empty : e.frameBuffer = []
  · have still : e.flushFragment encode = (.ok (), e) := by
      rw [FragmentEncoder.flushFragment, if_pos (by simpa using empty)]
    have same : (e.call (.flush encode)).2 = e := by rw [FragmentEncoder.call, still]
    exact before.kept rfl (by rw [same]) (by rw [same]) (by rw [same]) (by rw [same])
      (by rw [same]) trivial
  · cases encode with
    | fails message left =>
      have failed : (e.flushFragment (.fails message left)).1 = .error message := by
        rw [FragmentEncoder.flushFragment, if_neg (by simpa using empty)]
      obtain ⟨produced, buffer, count, total, paths⟩ :=
        FragmentEncoder.flushFragment_fails before.indices failed
      exact before.kept rfl produced buffer count total paths trivial
    | writes =>
      obtain ⟨-, produced, buffer, count, total, numbered⟩ :=
        FragmentEncoder.flushFragment_writes before.indices empty
      refine ⟨?_, ?_, ?_, numbered, List.forall_mem_cons.mpr ⟨trivial, before.unchanged⟩⟩
      · change (e.flushFragment .writes).2.produced.flatten ++
          (e.flushFragment .writes).2.frameBuffer = acceptedFrames history ++ []
        rw [produced, buffer, List.flatten_append, List.append_nil, List.append_nil,
          ← before.frames, List.flatten_singleton]
      · change (e.flushFragment .writes).2.totalFrames = (acceptedFrames history ++ []).length
        rw [total, before.total, List.append_nil]
      · change (e.flushFragment .writes).2.frameCount = (e.flushFragment .writes).2.frameBuffer.length
        rw [count, buffer]
        rfl

section Encode
variable {rgbData : RgbFrame} {width height : Nat} {encode : FragmentEncode}

/-- A call that refuses the frame. -/
theorem FramesAccounted.refused (before : FramesAccounted history e) (message : String) :
    FramesAccounted (⟨e, .encodeFrame rgbData width height encode, .error message, e⟩ :: history) e :=
  before.kept rfl rfl rfl rfl rfl rfl rfl

/-- A frame that stays in the buffer is accounted for if the counters can count it. -/
theorem accounted_buffered_iff (before : FramesAccounted history e) (flushed : Bool)
    (e' : FragmentEncoder) (produced : e'.produced = e.produced)
    (paths : e'.fragmentPaths = e.fragmentPaths)
    (buffer : e'.frameBuffer = e.frameBuffer ++ [rgbData])
    (count : e'.frameCount = (e.frameCount + 1) % 2 ^ 32)
    (total : e'.totalFrames = (e.totalFrames + 1) % 2 ^ 64) :
    FramesAccounted (⟨e, .encodeFrame rgbData width height encode, .ok flushed, e'⟩ :: history) e' ↔
      e.totalFrames + 1 < 2 ^ 64 ∧ e.frameCount + 1 < 2 ^ 32 := by
  have accepted : acceptedFrames
      (⟨e, .encodeFrame rgbData width height encode, .ok flushed, e'⟩ :: history) =
      acceptedFrames history ++ [rgbData] := rfl
  constructor
  · intro after
    have totals := after.total
    have counts := after.count
    rw [accepted, List.length_append, List.length_singleton, ← before.total, total] at totals
    rw [buffer, List.length_append, List.length_singleton, ← before.count, count] at counts
    omega
  · rintro ⟨small, fits⟩
    refine ⟨?_, ?_, ?_, ?_, List.forall_mem_cons.mpr ⟨trivial, before.unchanged⟩⟩
    · rw [accepted, produced, buffer, ← List.append_assoc, before.frames]
    · rw [accepted, total, Nat.mod_eq_of_lt small, before.total, List.length_append,
        List.length_singleton]
    · rw [count, buffer, Nat.mod_eq_of_lt fits, before.count, List.length_append,
        List.length_singleton]
    · rw [paths]
      exact before.indices

/-- A frame that fills a fragment which is written is accounted for if the total can
count it. -/
theorem accounted_flushed_iff (before : FramesAccounted history e) (e' : FragmentEncoder)
    (produced : e'.produced = e.produced ++ [e.frameBuffer ++ [rgbData]]) (numbered : e'.Numbered)
    (buffer : e'.frameBuffer = []) (count : e'.frameCount = 0)
    (total : e'.totalFrames = (e.totalFrames + 1) % 2 ^ 64) :
    FramesAccounted (⟨e, .encodeFrame rgbData width height encode, .ok true, e'⟩ :: history) e' ↔
      e.totalFrames + 1 < 2 ^ 64 := by
  have accepted : acceptedFrames
      (⟨e, .encodeFrame rgbData width height encode, .ok true, e'⟩ :: history) =
      acceptedFrames history ++ [rgbData] := rfl
  constructor
  · intro after
    have totals := after.total
    rw [accepted, List.length_append, List.length_singleton, ← before.total, total] at totals
    omega
  · intro small
    refine ⟨?_, ?_, ?_, numbered, List.forall_mem_cons.mpr ⟨trivial, before.unchanged⟩⟩
    · rw [accepted, produced, buffer, List.flatten_append, List.flatten_singleton, List.append_nil,
        ← List.append_assoc, before.frames]
    · rw [accepted, total, Nat.mod_eq_of_lt small, before.total, List.length_append,
        List.length_singleton]
    · rw [count, buffer]
      rfl

theorem accounted_encodeFrame_iff (before : FramesAccounted history e) :
    FramesAccounted (⟨e, .encodeFrame rgbData width height encode,
        (e.encodeFrame rgbData width height encode).1,
        (e.encodeFrame rgbData width height encode).2⟩ :: history)
        (e.encodeFrame rgbData width height encode).2 ↔
      Undisturbed e (.encodeFrame rgbData width height encode) := by
  cases refused : e.refuses rgbData width height with
  | some message =>
    have outcome : e.encodeFrame rgbData width height encode = (.error message, e) := by
      rw [FragmentEncoder.encodeFrame, refused]
    rw [outcome]
    refine iff_of_true (before.refused message) fun accepts => ?_
    rw [refused] at accepts
    cases accepts
  | none =>
    have numbered : (e.buffered rgbData width height).Numbered := before.indices
    have some_ : (e.buffered rgbData width height).frameBuffer ≠ [] := by
      simp [FragmentEncoder.buffered]
    rw [Undisturbed, refused]
    simp only [true_imp_iff]
    by_cases full : (e.buffered rgbData width height).shouldFlush
    · cases encode with
      | writes =>
        obtain ⟨ok, produced, buffer, count, total, numbered'⟩ :=
          FragmentEncoder.flushFragment_writes numbered some_
        have outcome : e.encodeFrame rgbData width height .writes =
            (.ok true, ((e.buffered rgbData width height).flushFragment .writes).2) := by
          rw [FragmentEncoder.encodeFrame, refused]
          simp only [full, if_true]
          split
          · rename_i failed
            rw [failed] at ok
            cases ok
          · rename_i flushed
            rw [flushed]
        rw [outcome, accounted_flushed_iff before _ produced numbered' buffer count total]
        simp [full]
      | fails message left =>
        have failed : ((e.buffered rgbData width height).flushFragment (.fails message left)).1 =
            .error message := by
          rw [FragmentEncoder.flushFragment, if_neg (by simpa using some_)]
        obtain ⟨-, buffer, -⟩ := FragmentEncoder.flushFragment_fails numbered failed
        have outcome : e.encodeFrame rgbData width height (.fails message left) = (.error message,
            ((e.buffered rgbData width height).flushFragment (.fails message left)).2) := by
          rw [FragmentEncoder.encodeFrame, refused]
          simp only [full, if_true]
          split
          · rename_i flushed
            rw [flushed] at failed ⊢
            rw [Except.error.inj failed]
          · rename_i flushed
            rw [flushed] at failed
            cases failed
        rw [outcome]
        refine iff_of_false (fun after => ?_) (by simp [full])
        have same := after.unchanged _ List.mem_cons_self
        have grown := congrArg (fun e => e.frameBuffer.length) same
        rw [buffer] at grown
        simp [FragmentEncoder.buffered] at grown
    · have outcome : e.encodeFrame rgbData width height encode =
          (.ok false, e.buffered rgbData width height) := by
        rw [FragmentEncoder.encodeFrame, refused]
        simp only [full]
        rfl
      rw [outcome, accounted_buffered_iff before false (e.buffered rgbData width height) rfl rfl rfl
        rfl rfl]
      simp [full]

end Encode

theorem accounted_step_iff (before : FramesAccounted history e)
    (moved : fragmentEncoder.step e c = some (e', out)) :
    FramesAccounted (⟨e, c, out, e'⟩ :: history) e' ↔ Undisturbed e c := by
  cases moved
  cases c with
  | encodeFrame rgbData width height encode => exact accounted_encodeFrame_iff before
  | flush encode => exact iff_of_true (before.flush encode) trivial

/-- What holds of a run up to each of its calls, and of the whole of it. -/
def AlwaysAccounted : FragmentHistory → FragmentEncoder → Prop
  | [], e => FramesAccounted [] e
  | step :: older, e => FramesAccounted (step :: older) e ∧ AlwaysAccounted older step.pre

theorem AlwaysAccounted.now (always : AlwaysAccounted history e) : FramesAccounted history e := by
  cases history with
  | nil => exact always
  | cons step older => exact always.1

theorem accounted_opened (fragmentConfig : FragmentConfig) (fps : ℕ+) :
    FramesAccounted [] (.opened fragmentConfig fps) :=
  ⟨rfl, rfl, rfl, rfl, fun _ member => nomatch member⟩

/-- Whatever is called and whichever fragments fail to encode, frames, counters and
fragments are accounted for all along exactly if no call is disturbed. -/
theorem fragment_accounting_iff (fragmentConfig : FragmentConfig) (fps : ℕ+)
    (run : Run fragmentEncoder (.opened fragmentConfig fps) history e) :
    AlwaysAccounted history e ↔ ∀ step ∈ history, Undisturbed step.pre step.act := by
  induction run with
  | start => exact iff_of_true (accounted_opened fragmentConfig fps) fun _ member => nomatch member
  | next before moved ih =>
    rw [List.forall_mem_cons, ← ih]
    constructor
    · rintro ⟨now, earlier⟩
      exact ⟨(accounted_step_iff earlier.now moved).mp now, earlier⟩
    · rintro ⟨undisturbed, earlier⟩
      exact ⟨(accounted_step_iff earlier.now moved).mpr undisturbed, earlier⟩

/-- Two frames, each a fragment of its own. -/
def singleFrames : FragmentConfig := ⟨some 1, none, none⟩

theorem fragment_accounting_two_frames :
    ∃ history e, Run fragmentEncoder (.opened singleFrames 30) history e ∧
      e.produced = [[[1, 2, 3]], [[4, 5, 6]]] ∧
      (AlwaysAccounted history e ↔ ∀ step ∈ history, Undisturbed step.pre step.act) := by
  obtain ⟨history, e, run, seen⟩ := Run.of_observation fragmentEncoder (.opened singleFrames 30)
    [.encodeFrame [1, 2, 3] 1 1 .writes, .encodeFrame [4, 5, 6] 1 1 .writes]
    (fun reached => reached.2.produced) [[[1, 2, 3]], [[4, 5, 6]]] rfl
  exact ⟨history, e, run, seen, fragment_accounting_iff _ _ run⟩

/-- The fragment fails to encode under the frame that fills it, and the caller tries again:
one frame was accepted, two are in the fragment. -/
theorem retried_frame_encoded_twice :
    ¬ ∀ history e, Run fragmentEncoder (.opened singleFrames 30) history e →
      AlwaysAccounted history e := by
  intro claimed
  obtain ⟨history, e, run, seen⟩ := Run.of_observation fragmentEncoder (.opened singleFrames 30)
    [.encodeFrame [1, 2, 3] 1 1 (.fails "disk full" none), .encodeFrame [1, 2, 3] 1 1 .writes]
    (fun reached => (reached.2.produced, reached.2.totalFrames, acceptedFrames reached.1))
    ([[[1, 2, 3], [1, 2, 3]]], 2, [[1, 2, 3]]) rfl
  simp only [Prod.mk.injEq] at seen
  have total := (claimed history e run).now.total
  rw [seen.2.1, seen.2.2] at total
  exact absurd total (by decide)

end Roboflow.Media
