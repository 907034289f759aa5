import Roboflow.Executor.PolicyExecutor

/-! What the policy executor hands to its processor. Without a transformation every frame's data is
replaced by the empty result of the no-op, and the limit is looked at between batches only, so the batch
that reaches it is processed to its end. -/
namespace Roboflow.Executor
open Library

/-! ### What the processor sees -/

/-- The frames the processor was given, oldest first. -/
def processed : ProcessorLog → List FrameForProcessing
  | [] => []
  | .process frame _ :: older => processed older ++ [frame]
  | _ :: older => processed older

/-- The frames whose output was not to be written. -/
def unwritten : ProcessorLog → Nat
  | [] => 0
  | .process _ (.ok output) :: older => unwritten older + if output.shouldWrite then 0 else 1
  | _ :: older => unwritten older

/-- The frames a limit lets through. -/
def limited (maxFrames : Option Nat) (frames : List α) : List α :=
  match maxFrames with
  | none => frames
  | some max => frames.take max

/-- The batch that reaches the limit ends there. -/
def EndsAtLimit (maxFrames : Option Nat) (batches : List (List α)) : Prop :=
  ∀ max, maxFrames = some max → ∀ before batch after, batches = before ++ batch :: after →
    before.flatten.length < max → before.flatten.length + batch.length ≤ max

/-- The counts agree with the outcomes. -/
def Accounted (s : PipelineExecutor) : Prop :=
  s.stats.framesProcessed = s.stats.framesWritten + s.stats.framesErrored + unwritten s.log

/-- The processor is given the frames within the limit, in order and unchanged, and each is counted
under its outcome. -/
structure HandsOver (config : PipelineExecutorConfig) (batches : List (List FrameForProcessing))
    (s : PipelineExecutor) : Prop where
  frames : processed s.log = limited config.maxFrames batches.flatten
  accounted : Accounted s

/-! ### Batches under a limit -/

/-- The items of the batches that start below the limit. -/
def admitted (maxFrames : Option Nat) : Nat → List (List α) → List α
  | _, [] => []
  | count, batch :: rest =>
    if maxFrames.any (· ≤ count) then admitted maxFrames count rest
    else batch ++ admitted maxFrames (count + batch.length) rest

theorem admitted_none (count : Nat) (batches : List (List α)) :
    admitted none count batches = batches.flatten := by
  induction batches generalizing count with
  | nil => rfl
  | cons batch rest ih =>
    unfold admitted
    rw [if_neg (by simp), ih, List.flatten_cons]

theorem admitted_of_le {max count : Nat} (reached : max ≤ count) (batches : List (List α)) :
    admitted (some max) count batches = [] := by
  induction batches with
  | nil => rfl
  | cons batch rest ih =>
    unfold admitted
    rw [if_pos (by simpa using reached), ih]

/-- What is admitted is what the limit lets through if and only if no batch goes past it. -/
theorem admitted_eq_take_iff (max count : Nat) (batches : List (List α)) :
    admitted (some max) count batches = batches.flatten.take (max - count) ↔
      ∀ before batch after, batches = before ++ batch :: after →
        count + before.flatten.length < max → count + before.flatten.length + batch.length ≤ max := by
  induction batches generalizing count with
  | nil => simp [admitted]
  | cons batch rest ih =>
    by_cases reached : max ≤ count
    · rw [admitted_of_le reached, Nat.sub_eq_zero_of_le reached, List.take_zero]
      refine iff_of_true rfl fun before _ _ _ below => ?_
      omega
    · have open_ : admitted (some max) count (batch :: rest) =
          batch ++ admitted (some max) (count + batch.length) rest := by
        conv_lhs => unfold admitted
        rw [if_neg (by simpa using reached)]
      rw [open_, List.flatten_cons, List.take_append]
      by_cases within : count + batch.length ≤ max
      · rw [List.take_of_length_le (by omega : batch.length ≤ max - count), List.append_cancel_left_eq,
          Nat.sub_sub, ih]
        constructor
        · intro later before next after split below
          cases before with
          | nil =>
            obtain ⟨rfl, -⟩ := List.cons.inj split
            simpa using within
          | cons first before =>
            obtain ⟨rfl, behind⟩ := List.cons.inj split
            have := later before next after behind
            simp only [List.flatten_cons, List.length_append] at below ⊢
            omega
        · intro all before next after split below
          have := all (batch :: before) next after (by rw [split, List.cons_append])
          simp only [List.flatten_cons, List.length_append] at this
          omega
      · refine iff_of_false (fun same => ?_) fun all => ?_
        · have lengths := congrArg List.length same
          simp only [List.length_append, List.length_take] at lengths
          omega
        · have := all [] batch rest rfl (by simpa using reached)
          exact within (by simpa using this)

theorem admitted_eq_limited_iff (maxFrames : Option Nat) (batches : List (List α)) :
    admitted maxFrames 0 batches = limited maxFrames batches.flatten ↔ EndsAtLimit maxFrames batches := by
  cases maxFrames with
  | none =>
    rw [admitted_none]
    refine iff_of_true rfl fun max none_ => ?_
    cases none_
  | some max =>
    have := admitted_eq_take_iff max 0 batches
    simp only [Nat.zero_add, Nat.sub_zero] at this
    rw [limited, this]
    constructor
    · rintro all _ ⟨⟩
      exact all
    · intro all
      exact all max rfl

/-- Batches are admitted from the first on. -/
theorem admitted_begins (maxFrames : Option Nat) (count : Nat) (batches : List (List α)) :
    admitted maxFrames count batches <+: batches.flatten := by
  induction batches generalizing count with
  | nil => exact List.prefix_rfl
  | cons batch rest ih =>
    by_cases reached : ∃ max, maxFrames = some max ∧ max ≤ count
    · obtain ⟨max, rfl, below⟩ := reached
      rw [admitted_of_le below]
      exact List.nil_prefix
    · have open_ : ¬maxFrames.any (· ≤ count) = true := by
        cases maxFrames with
        | none => simp
        | some max => simpa using reached
      unfold admitted
      rw [if_neg open_, List.flatten_cons]
      exact (List.prefix_append_right_inj batch).mpr (ih _)

theorem limited_begins (maxFrames : Option Nat) (frames : List α) : limited maxFrames frames <+: frames := by
  cases maxFrames with
  | none => exact List.prefix_rfl
  | some max => exact List.take_prefix ..

/-! ### One frame, one batch, all batches -/

/-- A frame without its data. -/
def FrameForProcessing.blank (frame : FrameForProcessing) : FrameForProcessing :=
  { frame with data := [] }

theorem FrameForProcessing.blank_eq_iff (frame : FrameForProcessing) :
    frame.blank = frame ↔ frame.data = [] := by
  obtain ⟨index, timestamp, episodeIndex, data⟩ := frame
  simp only [blank, FrameForProcessing.mk.injEq, true_and]
  exact eq_comm

variable {p : FrameProcessor} {config : PipelineExecutorConfig} {policy : ExecutionPolicy}
  {transform : FrameTransformer} {s : PipelineExecutor}

/-- What a number of frames does to the executor: as many more are counted, each under its outcome, the
processor has been given the frames that came out of the transformation, and the episode is the same. -/
structure Advanced (s s' : PipelineExecutor) (count : Nat) (frames : List FrameForProcessing) : Prop where
  counted : s'.stats.framesProcessed = s.stats.framesProcessed + count
  processed_ : processed s'.log = processed s.log ++ frames
  accounted : Accounted s → Accounted s'
  started : s'.episodeStarted = s.episodeStarted

theorem advanced_refl (s : PipelineExecutor) : Advanced s s 0 [] :=
  ⟨rfl, (List.append_nil _).symm, id, rfl⟩

theorem Advanced.trans {s s' s'' : PipelineExecutor} (one : Advanced s s' count frames)
    (two : Advanced s' s'' count' frames') :
    Advanced s s'' (count + count') (frames ++ frames') where
  counted := by rw [two.counted, one.counted, Nat.add_assoc]
  processed_ := by rw [two.processed_, one.processed_, List.append_assoc]
  accounted := fun before => two.accounted (one.accounted before)
  started := two.started.trans one.started

/-- What the processor is given of a frame after its transformation. -/
def given (transformed : FrameForProcessing × Except String (List UInt8)) : Option FrameForProcessing :=
  match transformed.2 with
  | .ok data => some { transformed.1 with data := data }
  | .error _ => none

theorem processTransformed_advanced (p : FrameProcessor) (s : PipelineExecutor)
    (transformed : FrameForProcessing × Except String (List UInt8)) :
    Advanced s (s.processTransformed p transformed) 1 (given transformed).toList := by
  obtain ⟨frame, result⟩ := transformed
  cases result with
  | error e =>
    refine ⟨rfl, (List.append_nil _).symm, fun before => ?_, rfl⟩
    unfold Accounted at before ⊢
    simp only [PipelineExecutor.processTransformed]
    omega
  | ok data =>
    simp only [PipelineExecutor.processTransformed, given]
    cases answered : p.process s.log { frame with data := data } with
    | error e =>
      refine ⟨rfl, rfl, fun before => ?_, rfl⟩
      unfold Accounted at before ⊢
      simp only [unwritten]
      omega
    | ok output =>
      cases write : output.shouldWrite with
      | true =>
        simp only [write, if_true]
        refine ⟨rfl, rfl, fun before => ?_, rfl⟩
        unfold Accounted at before ⊢
        simp only [unwritten, write, if_true]
        omega
      | false =>
        simp only [write, Bool.false_eq_true, if_false]
        refine ⟨rfl, rfl, fun before => ?_, rfl⟩
        unfold Accounted at before ⊢
        simp only [unwritten, write, Bool.false_eq_true, if_false]
        omega

theorem foldl_advanced (p : FrameProcessor) (s : PipelineExecutor)
    (transformed : List (FrameForProcessing × Except String (List UInt8))) :
    Advanced s (transformed.foldl (PipelineExecutor.processTransformed p) s) transformed.length
      (transformed.filterMap given) := by
  induction transformed generalizing s with
  | nil => exact advanced_refl s
  | cons first rest ih =>
    have both := (processTransformed_advanced p s first).trans (ih _)
    rw [List.foldl_cons, List.length_cons, Nat.add_comm, List.filterMap_cons]
    cases one : given first with
    | none => simpa [one] using both
    | some frame => simpa [one] using both

/-- Under any transformation, a batch below the limit is processed to its end. -/
theorem processStarted_advanced (p : FrameProcessor) (policy : ExecutionPolicy)
    (transform : FrameTransformer) (open_ : s.limitReached config = false)
    (frames : List FrameForProcessing) :
    Advanced s (s.processStarted p config policy transform frames) frames.length
      (frames.filterMap fun frame => given (frame, transform frame)) := by
  unfold PipelineExecutor.processStarted
  rw [open_, if_neg Bool.false_ne_true, policy.executeBatch_eq]
  have all := foldl_advanced p s (frames.map fun frame => (frame, transform frame))
  rw [List.length_map, List.filterMap_map] at all
  exact all

theorem limitReached_eq (s : PipelineExecutor) (config : PipelineExecutorConfig) :
    s.limitReached config = config.maxFrames.any (· ≤ s.stats.framesProcessed) := by
  unfold PipelineExecutor.limitReached
  cases config.maxFrames <;> rfl

theorem processBatch_started (started : s.episodeStarted = true) (frames : List FrameForProcessing) :
    s.processBatch p config policy transform frames =
      (.ok (), s.processStarted p config policy transform frames) := by
  unfold PipelineExecutor.processBatch
  rw [if_pos started]

theorem filterMap_noOp (frames : List FrameForProcessing) :
    frames.filterMap (fun frame => given (frame, noOpTransformer frame)) =
      frames.map FrameForProcessing.blank :=
  congrFun (List.filterMap_eq_map' (f := FrameForProcessing.blank)) frames

/-- Once an episode is started, what is admitted of the batches is processed without its data. -/
theorem processBatches_started (p : FrameProcessor) (config : PipelineExecutorConfig)
    (policy : ExecutionPolicy) (started : s.episodeStarted = true)
    (batches : List (List FrameForProcessing)) :
    ∃ count, Advanced s (s.processBatches p config policy noOpTransformer batches) count
      ((admitted config.maxFrames s.stats.framesProcessed batches).map FrameForProcessing.blank) := by
  induction batches generalizing s with
  | nil => exact ⟨0, advanced_refl s⟩
  | cons batch rest ih =>
    have unfolded : s.processBatches p config policy noOpTransformer (batch :: rest) =
        (s.processStarted p config policy noOpTransformer batch).processBatches p config policy
          noOpTransformer rest := by
      rw [PipelineExecutor.processBatches, List.foldl_cons, processBatch_started started]
      rfl
    rw [unfolded]
    unfold admitted
    cases reached : s.limitReached config with
    | true =>
      have same : s.processStarted p config policy noOpTransformer batch = s := by
        unfold PipelineExecutor.processStarted
        rw [if_pos reached]
      rw [same, if_pos (by rw [← limitReached_eq, reached])]
      exact ih started
    | false =>
      have one := processStarted_advanced p policy noOpTransformer reached batch
      obtain ⟨count, more⟩ := ih (one.started.trans started)
      rw [one.counted] at more
      rw [if_neg (by rw [← limitReached_eq, reached]; exact Bool.false_ne_true), List.map_append,
        ← filterMap_noOp batch]
      exact ⟨_, one.trans more⟩

/-- The first episode is started by the first batch. -/
theorem processBatches_new (config : PipelineExecutorConfig) (policy : ExecutionPolicy)
    (accepted : p.startEpisode [] 0 = .ok ())
    (batches : List (List FrameForProcessing)) :
    processed (PipelineExecutor.new.processBatches p config policy noOpTransformer batches).log =
        (admitted config.maxFrames 0 batches).map FrameForProcessing.blank ∧
      Accounted (PipelineExecutor.new.processBatches p config policy noOpTransformer batches) := by
  cases batches with
  | nil => exact ⟨rfl, rfl⟩
  | cons batch rest =>
    let first : PipelineExecutor := ⟨⟨0, 0, 0⟩, 0, true, [.startEpisode 0 (.ok ())]⟩
    have begun : PipelineExecutor.new.startEpisode p 0 = (.ok (), first) := by
      simp only [PipelineExecutor.startEpisode, PipelineExecutor.new, accepted]
      rfl
    have same : PipelineExecutor.new.processBatches p config policy noOpTransformer (batch :: rest) =
        first.processBatches p config policy noOpTransformer (batch :: rest) := by
      have opened : (PipelineExecutor.new.processBatch p config policy noOpTransformer batch).2 =
          (first.processBatch p config policy noOpTransformer batch).2 := by
        rw [processBatch_started (s := first) rfl]
        unfold PipelineExecutor.processBatch
        rw [if_neg (show ¬PipelineExecutor.new.episodeStarted = true from Bool.false_ne_true), begun]
      rw [PipelineExecutor.processBatches, List.foldl_cons, opened]
      rfl
    obtain ⟨count, advanced⟩ := processBatches_started p config policy (s := first) rfl
      (batch :: rest)
    rw [same]
    exact ⟨advanced.processed_, advanced.accounted rfl⟩

/-- Whatever the processor answers to the frames, an executor without transformation hands over exactly
the frames within the limit, unchanged, if and only if these have no data and no batch that starts below
the limit goes past it. -/
theorem hands_over_iff (p : FrameProcessor) (config : PipelineExecutorConfig)
    (policy : ExecutionPolicy) (accepted : p.startEpisode [] 0 = .ok ())
    (batches : List (List FrameForProcessing)) :
    HandsOver config batches
        (PipelineExecutor.new.processBatches p config policy noOpTransformer batches) ↔
      (∀ frame ∈ limited config.maxFrames batches.flatten, frame.data = []) ∧
        EndsAtLimit config.maxFrames batches := by
  obtain ⟨handed, accounted⟩ := processBatches_new config policy accepted batches
  have blanks : ∀ frames : List FrameForProcessing,
      frames.map FrameForProcessing.blank = frames ↔ ∀ frame ∈ frames, frame.data = [] := by
    intro frames
    have each := List.map_inj_left (l := frames) (f := FrameForProcessing.blank) (g := id)
    simpa only [List.map_id, id_eq, FrameForProcessing.blank_eq_iff] using each
  constructor
  · intro hands
    have same := handed.symm.trans hands.frames
    have lengths := congrArg List.length same
    rw [List.length_map] at lengths
    have equal : admitted config.maxFrames 0 batches = limited config.maxFrames batches.flatten :=
      (List.prefix_of_prefix_length_le (admitted_begins ..) (limited_begins ..) lengths.le).eq_of_length
        lengths
    refine ⟨(blanks _).mp ?_, (admitted_eq_limited_iff ..).mp equal⟩
    rw [← equal, same, equal]
  · rintro ⟨empty, ends⟩
    refine ⟨?_, accounted⟩
    rw [handed, (admitted_eq_limited_iff ..).mpr ends, (blanks _).mpr empty]

/-! ### Two frames -/

/-- A processor that accepts every call and writes every frame. -/
def accepting : FrameProcessor where
  process _ frame := .ok ⟨frame.index, true, frame.data⟩
  startEpisode _ _ := .ok ()
  finishEpisode _ := .ok ()
  finalize _ := .ok ⟨0, 0, 0⟩

def emptyFrame (index : Nat) : FrameForProcessing := ⟨index, index, 0, []⟩

/-- A pool whose indexed map is the list's. -/
def listPool : RayonPool := ⟨fun f items => items.map f, fun _ _ => rfl⟩

/-- Frames without data, in a batch that ends at the limit. -/
theorem empty_frames_handed_over :
    HandsOver ⟨some 2⟩ [[emptyFrame 0, emptyFrame 1], [emptyFrame 2]]
      (PipelineExecutor.new.processBatches accepting ⟨some 2⟩ (.parallel listPool) noOpTransformer
        [[emptyFrame 0, emptyFrame 1], [emptyFrame 2]]) := by
  apply (hands_over_iff accepting ⟨some 2⟩ (.parallel listPool) rfl _).mpr
  refine ⟨?_, (admitted_eq_limited_iff ..).mp rfl⟩
  simp [limited, emptyFrame]

/-- A frame with data reaches the processor without it, and a batch of two goes past a limit of one. -/
theorem frames_not_handed_over :
    ¬HandsOver ⟨none⟩ [[⟨0, 0, 0, [1]⟩]]
        (PipelineExecutor.new.processBatches accepting ⟨none⟩ .sequential noOpTransformer
          [[⟨0, 0, 0, [1]⟩]]) ∧
      ¬HandsOver ⟨some 1⟩ [[emptyFrame 0, emptyFrame 1]]
        (PipelineExecutor.new.processBatches accepting ⟨some 1⟩ .sequential noOpTransformer
          [[emptyFrame 0, emptyFrame 1]]) := by
  constructor
  · intro hands
    exact absurd hands.frames (by decide)
  · intro hands
    exact absurd hands.frames (by decide)

end Roboflow.Executor
