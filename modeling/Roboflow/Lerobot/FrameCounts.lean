import Roboflow.Lerobot.VideoSegments
import Roboflow.Library.Machine

/-! The frames a writer has counted, over every order of its calls. A frame is counted while it
waits in `frame_data` and in `total_frames` once an entry of the metadata counts it. A finish of an
episode moves it from one to the other; `finalize` puts it in the other as well. -/
namespace Roboflow.Lerobot
open Library
open Roboflow.Alignment (AlignedFrame ImageData)

variable {Value : Type}

inductive WriterCall (Value : Type) where
  | writeFrame (frame : AlignedFrame Value)
  | finishEpisode (taskIndex : Option Nat)
  | finalize

/-- The writer after a call, and whether the call succeeded. One that is refused for its frames
leaves them, and what `finalize` had flushed by then. -/
def writerMachine [Zero Value] : Machine (LerobotWriter Value) (WriterCall Value) Bool where
  step w call :=
    match call with
    | .writeFrame frame => some (w.writeFrame frame, true)
    | .finishEpisode taskIndex =>
      match w.finishEpisodeWith taskIndex with
      | .ok w' => some (w', true)
      | .error _ => some (w, false)
    | .finalize =>
      match w.finalize with
      | .ok (w', _) => some (w', true)
      | .error _ => some (w.flushVideoSegment, false)

abbrev WriterHistory (Value : Type) := History (LerobotWriter Value) (WriterCall Value) Bool

/-! ### What a run has counted -/

namespace WriterHistory

/-- The frames written, in order. -/
def frames : WriterHistory Value → List (AlignedFrame Value)
  | [] => []
  | e :: older =>
    match e.act with
    | .writeFrame frame => frames older ++ [frame]
    | _ => frames older

/-- The number of frames written when a finish or `finalize` last succeeded. -/
def closed : WriterHistory Value → Nat
  | [] => 0
  | e :: older =>
    match e.act with
    | .writeFrame _ => closed older
    | _ => if e.out then (frames older).length else closed older

/-- The lengths of the metadata's entries, each with the number of frames written by then. -/
def entries : WriterHistory Value → List (Nat × Nat)
  | [] => []
  | e :: older =>
    entries older ++ (e.post.metadata.episodes.drop e.pre.metadata.episodes.length).map
      fun info => ((frames (e :: older)).length, info.length)

end WriterHistory

/-- An entry counts the frames in `frame_data` at the time: the last ones written. -/
def counts (n : Nat) (entry : Nat × Nat) : Bool := entry.1 - entry.2 ≤ n && n < entry.1

/-- Every frame is counted, and by exactly one entry of the metadata once it was finished. -/
structure Accounted (history : WriterHistory Value) (w : LerobotWriter Value) : Prop where
  frameCount : w.frameCount = history.frames.length
  once : ∀ n < history.frames.length,
    (history.entries.filter (counts n)).length = if n < history.closed then 1 else 0

/-- Nothing is written before. -/
structure Fresh (w : LerobotWriter Value) : Prop where
  frameData : w.frameData = []
  totalFrames : w.totalFrames = 0
  episodes : w.metadata.episodes = []

/-- A `finalize` does not find frames it can write. -/
def Harmless (w : LerobotWriter Value) : WriterCall Value → Prop
  | .finalize => ∀ frame ∈ w.frameData, frame.observationState = none
  | _ => True

instance (w : LerobotWriter Value) (call : WriterCall Value) : Decidable (Harmless w call) :=
  match call with
  | .finalize => inferInstanceAs (Decidable (∀ frame ∈ w.frameData, frame.observationState = none))
  | .writeFrame _ => .isTrue trivial
  | .finishEpisode _ => .isTrue trivial

/-! ### What a call does to the counts -/

/-- The same frames, counted the same. -/
structure SameBooks (w w' : LerobotWriter Value) : Prop where
  frameData : w'.frameData = w.frameData
  episodeIndex : w'.episodeIndex = w.episodeIndex
  totalFrames : w'.totalFrames = w.totalFrames
  episodes : w'.metadata.episodes = w.metadata.episodes

namespace SameBooks

theorem refl (w : LerobotWriter Value) : SameBooks w w := ⟨rfl, rfl, rfl, rfl⟩

theorem trans {w w' w'' : LerobotWriter Value} (first : SameBooks w w') (second : SameBooks w' w'') :
    SameBooks w w'' :=
  ⟨second.frameData.trans first.frameData, second.episodeIndex.trans first.episodeIndex,
    second.totalFrames.trans first.totalFrames, second.episodes.trans first.episodes⟩

end SameBooks

/-- The frames in `frame_data` are counted by one more entry. -/
structure NewEntry (w w' : LerobotWriter Value) : Prop where
  episodeIndex : w'.episodeIndex = w.episodeIndex
  totalFrames : w'.totalFrames = w.totalFrames + w.frameData.length
  episodes : ∃ tasks, w'.metadata.episodes =
    w.metadata.episodes ++ [⟨w.episodeIndex, w.frameData.length, tasks⟩]

namespace LerobotWriter
variable {w w' : LerobotWriter Value}

theorem flushVideoSegment_books (w : LerobotWriter Value) : SameBooks w w.flushVideoSegment := by
  have keeps := w.flushVideoSegment_keeps
  exact ⟨by simpa using keeps.frameData, keeps.episodeIndex, keeps.totalFrames,
    congrArg MetadataCollector.episodes keeps.metadata⟩

theorem mergeCamera_books {entry : String × List String} (merged : w.mergeCamera entry = .ok w') :
    SameBooks w w' := by
  unfold mergeCamera at merged
  split at merged
  · cases merged
    exact .refl _
  · cases composed : w.compose entry.2 with
    | error message => simp [composed, bind, Except.bind] at merged
    | ok video =>
      simp only [composed, bind, Except.bind, Except.ok.injEq] at merged
      subst merged
      exact ⟨rfl, rfl, rfl, rfl⟩

theorem foldlM_mergeCamera_books {entries : List (String × List String)}
    (merged : entries.foldlM mergeCamera w = .ok w') : SameBooks w w' := by
  induction entries generalizing w with
  | nil =>
    cases merged
    exact .refl _
  | cons entry entries ih =>
    rw [List.foldlM_cons] at merged
    cases first : w.mergeCamera entry with
    | error message => simp [first, bind, Except.bind] at merged
    | ok middle =>
      simp only [first, bind, Except.bind] at merged
      exact (mergeCamera_books first).trans (ih merged)

theorem mergePendingSegments_books (merged : w.mergePendingSegments = .ok w') : SameBooks w w' := by
  unfold mergePendingSegments at merged
  split at merged
  · cases merged
    exact .refl _
  · cases each : w.pendingSegments.entries.foldlM mergeCamera w with
    | error message => simp [each, bind, Except.bind] at merged
    | ok middle =>
      simp only [each, bind, Except.bind, Except.ok.injEq] at merged
      have books := foldlM_mergeCamera_books each
      subst merged
      exact ⟨books.frameData, books.episodeIndex, books.totalFrames, books.episodes⟩

variable [Zero Value]

/-- An episode without an observation state is refused before anything is written. -/
theorem finishEpisodeWith_books {taskIndex : Option Nat}
    (finished : w.finishEpisodeWith taskIndex = .ok w') :
    w.frameData = [] ∧ SameBooks w w' ∨
      w.frameData ≠ [] ∧ w'.frameData = [] ∧ NewEntry w w' := by
  unfold finishEpisodeWith at finished
  by_cases blank : w.frameData = []
  · rw [if_pos (by simp [blank])] at finished
    cases finished
    exact .inl ⟨blank, .refl _⟩
  · have full : w.frameData.isEmpty = false := by simpa using blank
    cases made : episodeRows w.frameData w.episodeIndex w.chunkIndex with
    | error message => simp [writeEpisodeParquet, full, made, bind, Except.bind] at finished
    | ok rows =>
      simp only [writeEpisodeParquet, full, made, bind, Except.bind, Bool.false_eq_true, if_false,
        Except.ok.injEq] at finished
      subst finished
      exact .inr ⟨blank, rfl, rfl, rfl, _, rfl⟩

theorem lastRows_books (written : w.lastRows = .ok w') :
    w.frameData = [] ∧ SameBooks w w' ∨
      (∃ frame ∈ w.frameData, frame.observationState ≠ none) ∧ w'.frameData = w.frameData ∧
        NewEntry w w' := by
  unfold lastRows at written
  by_cases blank : w.frameData = []
  · rw [if_pos (by simp [blank])] at written
    cases written
    exact .inl ⟨blank, .refl _⟩
  · have full : w.frameData.isEmpty = false := by simpa using blank
    cases made : episodeRows w.frameData w.episodeIndex w.chunkIndex with
    | error message =>
      simp [writeEpisodeParquet, full, made, bind, Except.bind] at written
    | ok rows =>
      have observed := (episodeRows_ok_iff _ _ _).1 ⟨rows, made⟩
      simp only [writeEpisodeParquet, full, made, bind, Except.bind, Bool.false_eq_true, if_false,
        Except.ok.injEq] at written
      subst written
      exact .inr ⟨observed, rfl, rfl, rfl, _, rfl⟩

/-- `finalize` counts the frames and keeps them. -/
theorem finalize_books {stats : WriterStats} (finalized : w.finalize = .ok (w', stats)) :
    w.frameData = [] ∧ SameBooks w w' ∨
      (∃ frame ∈ w.frameData, frame.observationState ≠ none) ∧ w'.frameData = w.frameData ∧
        NewEntry w w' := by
  have flushed := w.flushVideoSegment_books
  rw [finalize_eq] at finalized
  cases written : w.flushVideoSegment.lastRows with
  | error message => simp [written, Except.bind] at finalized
  | ok w₁ =>
    cases merged : w₁.mergePendingSegments with
    | error message => simp [written, merged, Except.bind] at finalized
    | ok w₂ =>
      simp only [written, merged, Except.bind, Except.ok.injEq, Prod.mk.injEq] at finalized
      obtain ⟨rfl, -⟩ := finalized
      have rest := mergePendingSegments_books merged
      rcases lastRows_books written with ⟨blank, same⟩ | ⟨observed, data, entered⟩
      · exact .inl ⟨flushed.frameData ▸ blank, (flushed.trans same).trans rest⟩
      · obtain ⟨tasks, entry⟩ := entered.episodes
        rw [flushed.frameData] at observed data entry
        refine .inr ⟨observed, rest.frameData.trans data, ?_, ?_, tasks, ?_⟩
        · rw [rest.episodeIndex, entered.episodeIndex, flushed.episodeIndex]
        · rw [rest.totalFrames, entered.totalFrames, flushed.totalFrames, flushed.frameData]
        · rw [rest.episodes, entry, flushed.episodes, flushed.episodeIndex]

end LerobotWriter

/-- What a call does to the counts, by whether it succeeded. -/
inductive Moves (w w' : LerobotWriter Value) : WriterCall Value → Bool → Prop where
  | written (wrote : LerobotWriter.Wrote w [frame] w') : Moves w w' (.writeFrame frame) true
  | idle (other : ∀ frame, call ≠ .writeFrame frame) (same : SameBooks w w')
      (blank : out = true → w.frameData = []) : Moves w w' call out
  | finished (some_ : w.frameData ≠ []) (cleared : w'.frameData = []) (entered : NewEntry w w') :
      Moves w w' (.finishEpisode taskIndex) true
  | doubled (observed : ∃ frame ∈ w.frameData, frame.observationState ≠ none)
      (kept : w'.frameData = w.frameData) (entered : NewEntry w w') : Moves w w' .finalize true

theorem writerMachine_moves [Zero Value] {w w' : LerobotWriter Value} {call : WriterCall Value}
    {out : Bool} (moved : writerMachine.step w call = some (w', out)) : Moves w w' call out := by
  cases call with
  | writeFrame frame =>
    cases moved
    exact .written (w.writeFrameAt_wrote frame _)
  | finishEpisode taskIndex =>
    simp only [writerMachine] at moved
    cases result : w.finishEpisodeWith taskIndex with
    | error message =>
      simp only [result, Option.some.injEq, Prod.mk.injEq] at moved
      obtain ⟨rfl, rfl⟩ := moved
      exact .idle (by simp) (.refl _) (by simp)
    | ok w₁ =>
      simp only [result, Option.some.injEq, Prod.mk.injEq] at moved
      obtain ⟨rfl, rfl⟩ := moved
      rcases LerobotWriter.finishEpisodeWith_books result with ⟨blank, same⟩ | ⟨some_, cleared, entered⟩
      · exact .idle (by simp) same fun _ => blank
      · exact .finished some_ cleared entered
  | finalize =>
    simp only [writerMachine] at moved
    cases result : w.finalize with
    | error message =>
      simp only [result, Option.some.injEq, Prod.mk.injEq] at moved
      obtain ⟨rfl, rfl⟩ := moved
      exact .idle (by simp) w.flushVideoSegment_books (by simp)
    | ok done =>
      simp only [result, Option.some.injEq, Prod.mk.injEq] at moved
      obtain ⟨rfl, rfl⟩ := moved
      rcases LerobotWriter.finalize_books result with ⟨blank, same⟩ | ⟨observed, kept, entered⟩
      · exact .idle (by simp) same fun _ => blank
      · exact .doubled observed kept entered

/-! ### Runs -/

section
variable {start w w' : LerobotWriter Value} {history : WriterHistory Value}

theorem counted_once_more {entries : List (Nat × Nat)} {closed made n : Nat} (le : closed ≤ made)
    (once : (entries.filter (counts n)).length = if n < closed then 1 else 0) :
    ((entries ++ [(made, made - closed)]).filter (counts n)).length =
      if n < made then 1 else 0 := by
  rw [List.filter_append, List.length_append, once, List.filter_singleton]
  have from_ : made - (made - closed) = closed := by omega
  simp only [counts, from_]
  by_cases before : n < closed
  · have early : n < made := by omega
    have out : ¬closed ≤ n := by omega
    simp [before, early, out]
  · by_cases late : n < made
    · have inside : closed ≤ n := by omega
      simp [before, late, inside]
    · simp [before, late]

theorem frames_other {e : Transition (LerobotWriter Value) (WriterCall Value) Bool}
    (other : ∀ frame, e.act ≠ .writeFrame frame) :
    WriterHistory.frames (e :: history) = WriterHistory.frames history := by
  unfold WriterHistory.frames
  split
  · rename_i frame same
    exact absurd same (other frame)
  · cases history <;> rfl

theorem closed_other {e : Transition (LerobotWriter Value) (WriterCall Value) Bool}
    (other : ∀ frame, e.act ≠ .writeFrame frame) :
    WriterHistory.closed (e :: history) =
      if e.out then (WriterHistory.frames history).length else WriterHistory.closed history := by
  rw [WriterHistory.closed]
  split
  · rename_i frame same
    exact absurd same (other frame)
  · rfl

/-- Where the entries stay the same, none is dated. -/
theorem entries_same {e : Transition (LerobotWriter Value) (WriterCall Value) Bool}
    (same : e.post.metadata.episodes = e.pre.metadata.episodes) :
    WriterHistory.entries (e :: history) = WriterHistory.entries history := by
  rw [WriterHistory.entries, same, List.drop_length, List.map_nil, List.append_nil]

theorem entries_entered {e : Transition (LerobotWriter Value) (WriterCall Value) Bool}
    (entered : NewEntry e.pre e.post) :
    WriterHistory.entries (e :: history) = WriterHistory.entries history ++
      [((WriterHistory.frames (e :: history)).length, e.pre.frameData.length)] := by
  obtain ⟨tasks, entry⟩ := entered.episodes
  rw [WriterHistory.entries, entry, List.drop_left]
  rfl

/-- The counts as they are kept while every `finalize` is harmless. -/
structure Ledger (history : WriterHistory Value) (w : LerobotWriter Value) : Prop where
  closed_le : history.closed ≤ history.frames.length
  totalFrames : w.totalFrames = history.closed
  waiting : w.frameData.length = history.frames.length - history.closed
  once : ∀ n, (history.entries.filter (counts n)).length = if n < history.closed then 1 else 0

namespace Ledger

theorem written (ledger : Ledger history w) {frame : AlignedFrame Value}
    (wrote : LerobotWriter.Wrote w [frame] w') :
    Ledger (⟨w, .writeFrame frame, true, w'⟩ :: history) w' where
  closed_le := by
    have le := ledger.closed_le
    simp only [WriterHistory.closed, WriterHistory.frames, List.length_append]
    omega
  totalFrames := wrote.totalFrames.trans ledger.totalFrames
  waiting := by
    have le := ledger.closed_le
    have waiting := ledger.waiting
    rw [wrote.frameData]
    simp only [WriterHistory.closed, WriterHistory.frames, List.length_append, List.length_map,
      List.length_singleton]
    omega
  once := by
    intro n
    rw [entries_same (congrArg MetadataCollector.episodes wrote.metadata)]
    exact ledger.once n

theorem idle (ledger : Ledger history w) {call : WriterCall Value} {out : Bool}
    (other : ∀ frame, call ≠ .writeFrame frame) (same : SameBooks w w')
    (blank : out = true → w.frameData = []) : Ledger (⟨w, call, out, w'⟩ :: history) w' := by
  have closed : WriterHistory.closed (⟨w, call, out, w'⟩ :: history) = history.closed := by
    rw [closed_other other]
    split
    · rename_i succeeded
      have waiting := ledger.waiting
      have le := ledger.closed_le
      rw [blank succeeded, List.length_nil] at waiting
      omega
    · rfl
  refine ⟨?_, ?_, ?_, ?_⟩
  · rw [closed, frames_other other]
    exact ledger.closed_le
  · rw [closed, same.totalFrames]
    exact ledger.totalFrames
  · rw [closed, frames_other other, same.frameData]
    exact ledger.waiting
  · intro n
    rw [closed, entries_same same.episodes]
    exact ledger.once n

theorem finished (ledger : Ledger history w) {taskIndex : Option Nat}
    (cleared : w'.frameData = []) (entered : NewEntry w w') :
    Ledger (⟨w, .finishEpisode taskIndex, true, w'⟩ :: history) w' := by
  have le := ledger.closed_le
  have waiting := ledger.waiting
  have frames : WriterHistory.frames (⟨w, .finishEpisode taskIndex, true, w'⟩ :: history) =
      history.frames := frames_other (by simp)
  have closed : WriterHistory.closed (⟨w, .finishEpisode taskIndex, true, w'⟩ :: history) =
      history.frames.length := closed_other (by simp)
  refine ⟨?_, ?_, ?_, ?_⟩
  · rw [closed, frames]
  · rw [closed, entered.totalFrames, ledger.totalFrames, waiting]
    omega
  · rw [closed, frames, cleared, Nat.sub_self, List.length_nil]
  · intro n
    rw [entries_entered entered, frames, closed]
    change ((WriterHistory.entries history ++ [(_, w.frameData.length)]).filter _).length = _
    rw [waiting]
    exact counted_once_more le (ledger.once n)

end Ledger

theorem ledger_of_harmless [Zero Value] (fresh : Fresh start)
    (run : Run writerMachine start history w)
    (harmless : ∀ e ∈ history, Harmless e.pre e.act) : Ledger history w := by
  induction run with
  | start =>
    exact ⟨le_rfl, fresh.totalFrames, by simp [fresh.frameData, WriterHistory.frames],
      fun n => by simp [WriterHistory.entries, WriterHistory.closed]⟩
  | next before moved ih =>
    have ledger := ih fun e member => harmless e (List.mem_cons_of_mem _ member)
    have last := harmless _ List.mem_cons_self
    cases writerMachine_moves moved with
    | written wrote => exact ledger.written wrote
    | idle other same blank => exact ledger.idle other same blank
    | finished some_ cleared entered => exact ledger.finished cleared entered
    | doubled observed kept entered =>
      obtain ⟨frame, member, state⟩ := observed
      exact absurd (last frame member) state

theorem Ledger.accounted (ledger : Ledger history w) : Accounted history w where
  frameCount := by
    have le := ledger.closed_le
    rw [LerobotWriter.frameCount, ledger.totalFrames, ledger.waiting]
    omega
  once n _ := ledger.once n

/-- The counts are right while no `finalize` finds frames to write, and wrong from the first that
does. -/
theorem frames_accounted_while_harmless [Zero Value] (fresh : Fresh start)
    (run : Run writerMachine start history w)
    (harmless : ∀ e ∈ history, Harmless e.pre e.act) :
    Accounted history w ∧
      ∀ w', writerMachine.step w .finalize = some (w', true) → ¬Harmless w .finalize →
        ¬Accounted (⟨w, .finalize, true, w'⟩ :: history) w' := by
  have ledger := ledger_of_harmless fresh run harmless
  refine ⟨ledger.accounted, fun w' moved harmful accounted => ?_⟩
  cases writerMachine_moves moved with
  | idle other same blank =>
    refine harmful fun frame member => ?_
    rw [blank rfl] at member
    cases member
  | doubled observed kept entered =>
    obtain ⟨frame, member, -⟩ := observed
    have some_ : 0 < w.frameData.length := List.length_pos_of_mem member
    have le := ledger.closed_le
    have count := accounted.frameCount
    rw [frames_other (by simp), LerobotWriter.frameCount, entered.totalFrames, kept,
      ledger.totalFrames, ledger.waiting] at count
    have waiting := ledger.waiting
    omega

end

theorem plainWriter_fresh : Fresh plainWriter := ⟨rfl, rfl, rfl⟩

/-- One frame, finished and finalized. -/
theorem frame_finished_accounted :
    ∃ history w, Run writerMachine plainWriter history w ∧ history.length = 3 ∧
      Accounted history w := by
  obtain ⟨history, w, run, seen⟩ := Run.of_observation writerMachine plainWriter
    [.writeFrame (stateFrame 0), .finishEpisode none, .finalize]
    (fun reached => (reached.1.length, reached.1.all fun e => decide (Harmless e.pre e.act)))
    (3, true) (by decide +kernel)
  obtain ⟨three, harmless⟩ := Prod.mk.inj seen
  have each : ∀ e ∈ history, Harmless e.pre e.act := by simpa using harmless
  exact ⟨history, w, run, three, (frames_accounted_while_harmless plainWriter_fresh run each).1⟩

/-- One frame and two calls of `finalize`: three frames are counted, and two entries hold it. -/
theorem finalized_twice_counted_twice :
    ∃ history w, Run writerMachine plainWriter history w ∧
      (w.frameCount, (WriterHistory.frames history).length,
        ((WriterHistory.entries history).filter (counts 0)).length) = (3, 1, 2) :=
  Run.of_observation writerMachine plainWriter [.writeFrame (stateFrame 0), .finalize, .finalize]
    (fun reached => (reached.2.frameCount, (WriterHistory.frames reached.1).length,
      ((WriterHistory.entries reached.1).filter (counts 0)).length)) _ (by decide +kernel)

end Roboflow.Lerobot
