import Roboflow.Executor.PolicyFrames

/-! The episodes a processor sees of the policy executor, whatever it answers. The flag and the index
are set before the processor has started the episode, restarting the current index asks for no finish,
and `finalize` leaves the flag set. -/
namespace Roboflow.Executor
open Library

/-! ### What a processor may see -/

/-- How the processor's episode stands: none is open, one is, the finish of the open one has failed. -/
inductive EpisodeView where
  | closed
  | opened
  | unfinished
  deriving DecidableEq

def EpisodeView.next : EpisodeView → ProcessorCall → EpisodeView
  | _, .startEpisode _ (.ok _) => .opened
  | _, .finishEpisode (.ok _) => .closed
  | .opened, .finishEpisode (.error _) => .unfinished
  | view, _ => view

def episodeView : ProcessorLog → EpisodeView
  | [] => .closed
  | call :: older => (episodeView older).next call

/-- Frames lie between a successful start and the next finish, an episode is started while none is open,
and a successful finish has an episode to finish. -/
def Permitted (view : EpisodeView) : ProcessorCall → Prop
  | .process _ _ => view = .opened
  | .startEpisode _ _ => view = .closed
  | .finishEpisode (.ok _) => view ≠ .closed
  | _ => True

/-- Every call is permitted after the calls before it. -/
def WellBracketed : ProcessorLog → Prop
  | [] => True
  | call :: older => Permitted (episodeView older) call ∧ WellBracketed older

/-! ### Calls of the executor -/

inductive PolicyCall where
  | startEpisode (index : Nat)
  | processBatch (frames : List FrameForProcessing)
  | finishEpisode
  | finalize

variable (p : FrameProcessor) (config : PipelineExecutorConfig) (policy : ExecutionPolicy)
  (transform : FrameTransformer)

/-- The executor in use. The caller may go on after every answer. -/
def policyCalls : Machine PipelineExecutor PolicyCall (Except String Unit) where
  step s
    | .startEpisode index =>
      let (answer, s) := s.startEpisode p index
      some (s, answer)
    | .processBatch frames =>
      let (answer, s) := s.processBatch p config policy transform frames
      some (s, answer)
    | .finishEpisode =>
      let (answer, s) := s.finishEpisode p
      some (s, answer)
    | .finalize =>
      let (answer, s) := s.finalize p
      some (s, answer.map fun _ => ())

/-- There is an episode to finish, or the processor refuses to. -/
def Finishable (s : PipelineExecutor) : Prop :=
  episodeView s.log ≠ .closed ∨ ∃ e, p.finishEpisode s.log = .error e

/-- While the flag is set: the current index is started again only when no episode is open, another index
and the ends only when there is one to finish, and frames are handed on only when it is not yet ended. -/
def Orderly (s : PipelineExecutor) : PolicyCall → Prop
  | .startEpisode index =>
    s.episodeStarted = true →
      if s.episodeIndex = index then episodeView s.log = .closed else Finishable p s
  | .processBatch frames =>
    s.episodeStarted = true →
      episodeView s.log = .opened ∨ s.limitReached config = true ∨
        ∀ frame ∈ frames, ∃ e, transform frame = .error e
  | .finishEpisode => s.episodeStarted = true → Finishable p s
  | .finalize => s.episodeStarted = true → Finishable p s

/-! ### The processor's calls of one step -/

variable {p : FrameProcessor} {config : PipelineExecutorConfig} {policy : ExecutionPolicy}
  {transform : FrameTransformer} {s s' : PipelineExecutor}

/-- Without the flag no episode is open. -/
def Flagged (s : PipelineExecutor) : Prop := s.episodeStarted = false → episodeView s.log = .closed

theorem finish_wellBracketed (p : FrameProcessor) (s : PipelineExecutor) :
    WellBracketed (.finishEpisode (p.finishEpisode s.log) :: s.log) ↔
      WellBracketed s.log ∧ Finishable p s := by
  simp only [WellBracketed, Finishable]
  cases p.finishEpisode s.log with
  | ok _ => simp [Permitted, and_comm]
  | error e => simp [Permitted]

theorem start_wellBracketed (index : Nat) (answer : Except String Unit) (log : ProcessorLog) :
    WellBracketed (.startEpisode index answer :: log) ↔
      WellBracketed log ∧ episodeView log = .closed := by
  simp only [WellBracketed, Permitted]
  exact and_comm

theorem finalize_wellBracketed (answer : Except String PipelineExecutorStats) (log : ProcessorLog) :
    WellBracketed (.finalize answer :: log) ↔ WellBracketed log := by
  simp only [WellBracketed, Permitted, true_and]

/-- A started episode is open, and the flag is set in any case. -/
theorem startEpisode_flagged (p : FrameProcessor) (s : PipelineExecutor) (index : Nat) :
    (s.startEpisode p index).2.episodeStarted = true := by
  unfold PipelineExecutor.startEpisode
  dsimp only
  split
  · rename_i other
    cases p.finishEpisode s.log with
    | ok _ => rfl
    | error e => exact (Bool.and_eq_true_iff.mp other).1
  · rfl

theorem startEpisode_wellBracketed (config : PipelineExecutorConfig) (transform : FrameTransformer)
    (flagged : Flagged s) (index : Nat) :
    WellBracketed (s.startEpisode p index).2.log ↔
      WellBracketed s.log ∧ Orderly p config transform s (.startEpisode index) := by
  unfold PipelineExecutor.startEpisode Orderly
  dsimp only
  cases started : s.episodeStarted with
  | false =>
    rw [Bool.false_and, if_neg Bool.false_ne_true, start_wellBracketed]
    simp [flagged started]
  | true =>
    by_cases same : s.episodeIndex = index
    · rw [if_neg (by simp [same]), start_wellBracketed]
      simp [same]
    · rw [if_pos (by simp [same])]
      simp only [forall_const, if_neg same]
      rw [← finish_wellBracketed]
      cases answered : p.finishEpisode s.log with
      | error e => rfl
      | ok _ =>
        dsimp only
        rw [start_wellBracketed]
        exact and_iff_left rfl

theorem finishEpisode_wellBracketed (s : PipelineExecutor) :
    WellBracketed (s.finishEpisode p).2.log ↔
      WellBracketed s.log ∧ Orderly p config transform s .finishEpisode := by
  unfold PipelineExecutor.finishEpisode Orderly
  cases started : s.episodeStarted with
  | false => simp
  | true =>
    simp only [if_true, forall_const]
    rw [← finish_wellBracketed]
    cases p.finishEpisode s.log <;> rfl

theorem finishEpisode_flagged (flagged : Flagged s) : Flagged (s.finishEpisode p).2 := by
  unfold PipelineExecutor.finishEpisode
  cases started : s.episodeStarted with
  | false => exact flagged
  | true =>
    simp only [if_true]
    cases p.finishEpisode s.log with
    | ok _ => exact fun _ => rfl
    | error e => exact fun unset => by simp at unset

/-- The calls `finalize` is made after. -/
def finishedLog (p : FrameProcessor) (s : PipelineExecutor) : ProcessorLog :=
  if s.episodeStarted then .finishEpisode (p.finishEpisode s.log) :: s.log else s.log

theorem finalize_eq (p : FrameProcessor) (s : PipelineExecutor) :
    (s.finalize p).2.log = .finalize (p.finalize (finishedLog p s)) :: finishedLog p s ∧
      (s.finalize p).2.episodeStarted = s.episodeStarted := by
  unfold PipelineExecutor.finalize finishedLog
  cases started : s.episodeStarted with
  | false =>
    simp only [Bool.false_eq_true, if_false]
    cases p.finalize s.log with
    | ok _ => exact ⟨rfl, started⟩
    | error e => exact ⟨rfl, started⟩
  | true =>
    simp only [if_true]
    cases p.finalize (.finishEpisode (p.finishEpisode s.log) :: s.log) with
    | ok _ => exact ⟨rfl, rfl⟩
    | error e => exact ⟨rfl, rfl⟩

theorem finalize_wellBracketed_iff (s : PipelineExecutor) :
    WellBracketed (s.finalize p).2.log ↔
      WellBracketed s.log ∧ Orderly p config transform s .finalize := by
  rw [(finalize_eq p s).1, finalize_wellBracketed]
  unfold Orderly finishedLog
  cases started : s.episodeStarted with
  | false => simp
  | true =>
    simp only [if_true, forall_const]
    exact finish_wellBracketed p s

theorem finalize_flagged (flagged : Flagged s) : Flagged (s.finalize p).2 := by
  intro unset
  rw [(finalize_eq p s).2] at unset
  rw [(finalize_eq p s).1, finishedLog, if_neg (by simp [unset]), episodeView, flagged unset]
  rfl

/-! ### Batches -/

/-- A frame that comes out of its transformation is handed to the processor. -/
theorem processTransformed_log (p : FrameProcessor) (s : PipelineExecutor)
    (transformed : FrameForProcessing × Except String (List UInt8)) :
    ((s.processTransformed p transformed).log = s.log ∧ ∃ e, transformed.2 = .error e) ∨
      (∃ frame answer, (s.processTransformed p transformed).log = .process frame answer :: s.log) ∧
        ¬∃ e, transformed.2 = .error e := by
  obtain ⟨frame, result⟩ := transformed
  cases result with
  | error e => exact .inl ⟨rfl, e, rfl⟩
  | ok data =>
    refine .inr ⟨⟨{ frame with data := data }, p.process s.log { frame with data := data }, ?_⟩, ?_⟩
    · simp only [PipelineExecutor.processTransformed]
      cases p.process s.log { frame with data := data } with
      | error e => rfl
      | ok output =>
        dsimp only
        split <;> rfl
    · rintro ⟨e, ⟨⟩⟩

theorem foldl_wellBracketed (p : FrameProcessor) (s : PipelineExecutor)
    (transformed : List (FrameForProcessing × Except String (List UInt8))) :
    WellBracketed (transformed.foldl (PipelineExecutor.processTransformed p) s).log ↔
      WellBracketed s.log ∧
        (episodeView s.log = .opened ∨ ∀ result ∈ transformed, ∃ e, result.2 = .error e) := by
  induction transformed generalizing s with
  | nil => simp
  | cons first rest ih =>
    rw [List.foldl_cons, ih, List.forall_mem_cons]
    rcases processTransformed_log p s first with ⟨same, failed⟩ | ⟨⟨frame, answer, handed⟩, came⟩
    · rw [same]
      simp [failed]
    · rw [handed]
      have still : episodeView (.process frame answer :: s.log) = episodeView s.log := by
        rw [episodeView]
        cases episodeView s.log <;> rfl
      rw [still]
      simp only [WellBracketed, Permitted, came, false_and, or_false]
      constructor
      · rintro ⟨⟨opened, before⟩, -⟩
        exact ⟨before, opened⟩
      · rintro ⟨before, opened⟩
        exact ⟨⟨opened, before⟩, .inl opened⟩

theorem processStarted_wellBracketed (s : PipelineExecutor) (frames : List FrameForProcessing) :
    WellBracketed (s.processStarted p config policy transform frames).log ↔
      WellBracketed s.log ∧ (episodeView s.log = .opened ∨ s.limitReached config = true ∨
        ∀ frame ∈ frames, ∃ e, transform frame = .error e) := by
  unfold PipelineExecutor.processStarted
  cases reached : s.limitReached config with
  | true => simp
  | false =>
    rw [if_neg Bool.false_ne_true, policy.executeBatch_eq, foldl_wellBracketed]
    simp only [List.forall_mem_map, Bool.false_eq_true, false_or]

theorem processStarted_flag (s : PipelineExecutor) (frames : List FrameForProcessing) :
    (s.processStarted p config policy transform frames).episodeStarted = s.episodeStarted := by
  cases reached : s.limitReached config with
  | true =>
    unfold PipelineExecutor.processStarted
    rw [if_pos reached]
  | false => exact (processStarted_advanced p policy transform reached frames).started

/-- A batch starts the first episode itself, and is processed once that has succeeded. -/
theorem processBatch_cases (p : FrameProcessor) (config : PipelineExecutorConfig)
    (policy : ExecutionPolicy) (transform : FrameTransformer) (flagged : Flagged s) (frames : List FrameForProcessing) :
    (s.episodeStarted = true ∧ (s.processBatch p config policy transform frames).2 =
      s.processStarted p config policy transform frames) ∨
    (s.episodeStarted = false ∧ ∃ started : PipelineExecutor, started.episodeStarted = true ∧
      (WellBracketed started.log ↔ WellBracketed s.log) ∧
      ((s.processBatch p config policy transform frames).2 = started ∨
        episodeView started.log = .opened ∧ (s.processBatch p config policy transform frames).2 =
          started.processStarted p config policy transform frames)) := by
  cases flag : s.episodeStarted with
  | true =>
    refine .inl ⟨rfl, ?_⟩
    rw [processBatch_started flag]
  | false =>
    refine .inr ⟨rfl, (s.startEpisode p 0).2, startEpisode_flagged p s 0, ?_, ?_⟩
    · rw [startEpisode_wellBracketed config transform flagged]
      simp [Orderly, flag]
    · unfold PipelineExecutor.processBatch PipelineExecutor.startEpisode
      simp only [flag, Bool.false_and, Bool.false_eq_true, if_false]
      cases p.startEpisode s.log 0 with
      | error e => exact .inl rfl
      | ok _ => exact .inr ⟨rfl, rfl⟩

theorem processBatch_wellBracketed (flagged : Flagged s) (frames : List FrameForProcessing) :
    WellBracketed (s.processBatch p config policy transform frames).2.log ↔
      WellBracketed s.log ∧ Orderly p config transform s (.processBatch frames) := by
  unfold Orderly
  rcases processBatch_cases p config policy transform flagged frames with
    ⟨flag, same⟩ | ⟨flag, started, -, before, same | ⟨opened, same⟩⟩
  · rw [same, processStarted_wellBracketed]
    simp only [flag, forall_const]
  · rw [same, before]
    simp [flag]
  · rw [same, processStarted_wellBracketed, before]
    simp [flag, opened]

theorem processBatch_flagged (flagged : Flagged s) (frames : List FrameForProcessing) :
    (s.processBatch p config policy transform frames).2.episodeStarted = true := by
  rcases processBatch_cases p config policy transform flagged frames with
    ⟨flag, same⟩ | ⟨-, started, flag, -, same | ⟨-, same⟩⟩
  · rw [same, processStarted_flag, flag]
  · rw [same, flag]
  · rw [same, processStarted_flag, flag]

/-! ### Whole runs -/

/-- One call keeps the brackets if and only if it is orderly. -/
theorem step_wellBracketed {a : PolicyCall} {out : Except String Unit} (flagged : Flagged s)
    (moved : (policyCalls p config policy transform).step s a = some (s', out)) :
    Flagged s' ∧ (WellBracketed s'.log ↔ WellBracketed s.log ∧ Orderly p config transform s a) := by
  have set_ : ∀ {t : PipelineExecutor}, t.episodeStarted = true → Flagged t := by
    intro t flag unset
    rw [flag] at unset
    cases unset
  cases a with
  | startEpisode index =>
    obtain ⟨rfl, -⟩ := Prod.mk.inj (Option.some.inj moved)
    exact ⟨set_ (startEpisode_flagged ..), startEpisode_wellBracketed config transform flagged index⟩
  | processBatch frames =>
    obtain ⟨rfl, -⟩ := Prod.mk.inj (Option.some.inj moved)
    exact ⟨set_ (processBatch_flagged flagged frames), processBatch_wellBracketed flagged frames⟩
  | finishEpisode =>
    obtain ⟨rfl, -⟩ := Prod.mk.inj (Option.some.inj moved)
    exact ⟨finishEpisode_flagged flagged, finishEpisode_wellBracketed s⟩
  | finalize =>
    obtain ⟨rfl, -⟩ := Prod.mk.inj (Option.some.inj moved)
    exact ⟨finalize_flagged flagged, finalize_wellBracketed_iff s⟩

theorem run_flagged {history : History PipelineExecutor PolicyCall (Except String Unit)}
    (run : Run (policyCalls p config policy transform) .new history s) : Flagged s :=
  run.invariant (fun _ => rfl) fun _ _ _ _ flagged moved => (step_wellBracketed flagged moved).1

/-- Whatever is called and whatever the processor answers, it sees well bracketed episodes if and only if
every call of the run is orderly. -/
theorem wellBracketed_iff {history : History PipelineExecutor PolicyCall (Except String Unit)}
    (run : Run (policyCalls p config policy transform) .new history s) :
    WellBracketed s.log ↔ ∀ e ∈ history, Orderly p config transform e.pre e.act := by
  induction run with
  | start => exact iff_of_true trivial (List.forall_mem_nil _)
  | next before moved ih =>
    rw [(step_wellBracketed (run_flagged before) moved).2, ih, List.forall_mem_cons]
    exact and_comm

/-! ### Short runs -/

/-- A processor that starts no episode, and accepts the rest. -/
def refusing : FrameProcessor := { accepting with startEpisode := fun _ _ => .error "no episode" }

/-- An episode that is started and finished. -/
theorem one_episode_wellBracketed :
    ∃ history s, Run (policyCalls accepting ⟨none⟩ .sequential noOpTransformer) .new history s ∧
      history.length = 3 ∧ s.log.length = 3 ∧ WellBracketed s.log := by
  have begun : Run (policyCalls accepting ⟨none⟩ .sequential noOpTransformer) .new [] .new := .start
  have run := (begun.move (.startEpisode 0) _ _ rfl).move (.processBatch [emptyFrame 0]) _ _ rfl
  have all := run.move .finishEpisode _ _ rfl
  refine ⟨_, _, all, rfl, rfl, (wellBracketed_iff all).mpr ?_⟩
  simp only [List.forall_mem_cons]
  refine ⟨fun _ => .inl ?_, fun _ => .inl rfl, fun unset => ?_, List.forall_mem_nil _⟩
  · intro closed
    cases closed
  · cases unset

/-- The index of the open episode is started again; and frames follow a start that has failed. -/
theorem episodes_not_wellBracketed :
    (∃ history s, Run (policyCalls accepting ⟨none⟩ .sequential noOpTransformer) .new history s ∧
      history.map (·.act) = [.startEpisode 0, .startEpisode 0] ∧ ¬WellBracketed s.log) ∧
    ∃ history s, Run (policyCalls refusing ⟨none⟩ .sequential noOpTransformer) .new history s ∧
      history.map (·.act) = [.processBatch [emptyFrame 0], .startEpisode 0] ∧ ¬WellBracketed s.log := by
  constructor
  · refine ⟨_, _, (Run.start.move (.startEpisode 0) _ _ rfl).move (.startEpisode 0) _ _ rfl, rfl, ?_⟩
    intro bracketed
    cases bracketed.1
  · refine ⟨_, _, (Run.start.move (.startEpisode 0) _ _ rfl).move
      (.processBatch [emptyFrame 0]) _ _ rfl, rfl, ?_⟩
    intro bracketed
    cases bracketed.1

end Roboflow.Executor
