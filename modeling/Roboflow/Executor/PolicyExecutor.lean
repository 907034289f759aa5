import Roboflow.Library.Machine

/-! The executor of `pipeline_executor.rs` with its policies. A batch is transformed under the policy
and then processed frame by frame. The processor is an oracle that answers each call from the calls made
before, so that every pattern of results is some processor's. The clock and what is computed from it are
left out. -/
namespace Roboflow.Executor
open Library

/-! ### Frames, policies and processors -/

structure FrameForProcessing where
  index : Nat
  timestamp : Nat
  episodeIndex : Nat
  data : List UInt8
  deriving DecidableEq, Repr

structure ProcessedFrameOutput where
  index : Nat
  shouldWrite : Bool
  data : List UInt8
  deriving DecidableEq, Repr

structure PipelineExecutorStats where
  framesProcessed : Nat
  framesWritten : Nat
  framesErrored : Nat
  deriving DecidableEq, Repr

/-- Of the configuration the executor reads the limit only. -/
structure PipelineExecutorConfig where
  maxFrames : Option Nat

/-- The pool of a parallel policy. Its indexed map and collect keeps the order. -/
structure RayonPool where
  mapCollect : {α β : Type} → (α → β) → List α → List β
  ordered : ∀ {α β : Type} (f : α → β) (items : List α), mapCollect f items = items.map f

inductive ExecutionPolicy where
  | sequential
  | parallel (pool : RayonPool)

/-- `execute_batch` of either policy. -/
def ExecutionPolicy.executeBatch (policy : ExecutionPolicy) (items : List α) (processor : α → β) :
    List β :=
  match policy with
  | .sequential => items.map processor
  | .parallel pool => pool.mapCollect processor items

theorem ExecutionPolicy.executeBatch_eq (policy : ExecutionPolicy) (items : List α)
    (processor : α → β) : policy.executeBatch items processor = items.map processor := by
  cases policy with
  | sequential => rfl
  | parallel pool => exact pool.ordered processor items

/-- `FrameTransformer::transform`. -/
abbrev FrameTransformer := FrameForProcessing → Except String (List UInt8)

def noOpTransformer : FrameTransformer := fun _ => .ok []

/-- A call of the processor with its answer. -/
inductive ProcessorCall where
  | process (frame : FrameForProcessing) (answer : Except String ProcessedFrameOutput)
  | startEpisode (index : Nat) (answer : Except String Unit)
  | finishEpisode (answer : Except String Unit)
  | finalize (answer : Except String PipelineExecutorStats)

/-- The calls of a processor, newest first. -/
abbrev ProcessorLog := List ProcessorCall

structure FrameProcessor where
  process : ProcessorLog → FrameForProcessing → Except String ProcessedFrameOutput
  startEpisode : ProcessorLog → Nat → Except String Unit
  finishEpisode : ProcessorLog → Except String Unit
  finalize : ProcessorLog → Except String PipelineExecutorStats

/-! ### The executor -/

structure PipelineExecutor where
  stats : PipelineExecutorStats
  episodeIndex : Nat
  episodeStarted : Bool
  log : ProcessorLog

namespace PipelineExecutor

def new : PipelineExecutor := ⟨⟨0, 0, 0⟩, 0, false, []⟩

variable (p : FrameProcessor) (config : PipelineExecutorConfig) (policy : ExecutionPolicy)
  (transform : FrameTransformer)

/-- `start_episode`. The index and the flag are set before the processor is asked. -/
def startEpisode (s : PipelineExecutor) (index : Nat) : Except String Unit × PipelineExecutor :=
  let start (s : PipelineExecutor) : Except String Unit × PipelineExecutor :=
    let answer := p.startEpisode s.log index
    (answer, ⟨s.stats, index, true, .startEpisode index answer :: s.log⟩)
  if s.episodeStarted && s.episodeIndex != index then
    let answer := p.finishEpisode s.log
    let s := { s with log := .finishEpisode answer :: s.log }
    match answer with
    | .error e => (.error e, s)
    | .ok () => start s
  else start s

/-- `finish_episode`. The flag is cleared once the processor has finished. -/
def finishEpisode (s : PipelineExecutor) : Except String Unit × PipelineExecutor :=
  if s.episodeStarted then
    let answer := p.finishEpisode s.log
    let s := { s with log := .finishEpisode answer :: s.log }
    match answer with
    | .error e => (.error e, s)
    | .ok () => (.ok (), { s with episodeStarted := false })
  else (.ok (), s)

/-- The limit on frames is reached. -/
def limitReached (s : PipelineExecutor) : Bool :=
  match config.maxFrames with
  | some max => decide (max ≤ s.stats.framesProcessed)
  | none => false

/-- What the loop of `process_batch` does with one frame and the result of its transformation. -/
def processTransformed (s : PipelineExecutor)
    (transformed : FrameForProcessing × Except String (List UInt8)) : PipelineExecutor :=
  let stats := { s.stats with framesProcessed := s.stats.framesProcessed + 1 }
  match transformed.2 with
  | .ok data =>
    let frame := { transformed.1 with data := data }
    let answer := p.process s.log frame
    let log := .process frame answer :: s.log
    match answer with
    | .ok output =>
      if output.shouldWrite then
        { s with stats := { stats with framesWritten := stats.framesWritten + 1 }, log := log }
      else { s with stats := stats, log := log }
    | .error _ =>
      { s with stats := { stats with framesErrored := stats.framesErrored + 1 }, log := log }
  | .error _ => { s with stats := { stats with framesErrored := stats.framesErrored + 1 } }

/-- `process_batch`, once an episode is started. -/
def processStarted (s : PipelineExecutor) (frames : List FrameForProcessing) : PipelineExecutor :=
  if s.limitReached config then s
  else
    (policy.executeBatch frames fun frame => (frame, transform frame)).foldl (processTransformed p) s

def processBatch (s : PipelineExecutor) (frames : List FrameForProcessing) :
    Except String Unit × PipelineExecutor :=
  if s.episodeStarted then (.ok (), s.processStarted p config policy transform frames)
  else
    match s.startEpisode p 0 with
    | (.error e, s) => (.error e, s)
    | (.ok (), s) => (.ok (), s.processStarted p config policy transform frames)

/-- `finalize`. A failed finish is only logged, and the flag stays as it is. -/
def finalize (s : PipelineExecutor) : Except String PipelineExecutorStats × PipelineExecutor :=
  let s := if s.episodeStarted then { s with log := .finishEpisode (p.finishEpisode s.log) :: s.log }
    else s
  let answer := p.finalize s.log
  let s := { s with log := .finalize answer :: s.log }
  match answer with
  | .error e => (.error e, s)
  | .ok _ => (.ok s.stats, s)

/-- Batches one after the other. -/
def processBatches (s : PipelineExecutor) (batches : List (List FrameForProcessing)) :
    PipelineExecutor :=
  batches.foldl (fun s frames => (s.processBatch p config policy transform frames).2) s

end PipelineExecutor

end Roboflow.Executor
