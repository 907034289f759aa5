import Roboflow.Alignment.NoLoss

/-! The order in which frames leave the buffer. The completion check removes
from the back of the vector and numbers its own frames from zero, and so does
every later call, so a stream is numbered and ordered as a whole only when at
most one call emits, and that call a single frame unless it is the flush. -/
namespace Roboflow.Alignment
open Library FrameAlignmentBuffer

variable {Message Value : Type} {config : StreamingConfig} {criteria : FrameCompletionCriteria}
  {extraction : Extraction Message Value}

/-- Strictly increasing timestamps, and the indices 0, 1, 2 and so on. -/
def InOrder (frames : List (AlignedFrame Value)) : Prop :=
  (frames.map (·.timestamp)).Pairwise (· < ·) ∧
    frames.map (·.frameIndex) = List.range frames.length

/-- Features the messages of one aligned timestamp bring. -/
def featuresAt (config : StreamingConfig) (calls : List (TimestampedMessage Message × String))
    (timestamp : Nat) : Finset String :=
  ((calls.filter fun call => config.alignToFrameBoundary call.1.logTime = timestamp).map
    Prod.snd).toFinset

/-- No frame of these messages meets the criteria, and none of their log times
has passed the window of any of their frames. -/
def Waiting (config : StreamingConfig) (criteria : FrameCompletionCriteria)
    (calls : List (TimestampedMessage Message × String)) : Prop :=
  ∀ call ∈ calls,
    let timestamp := config.alignToFrameBoundary call.1.logTime
    criteria.isComplete (featuresAt config calls timestamp) = false ∧
    ∀ other ∈ calls, other.1.logTime < saturatingAdd timestamp config.completionWindowNs

/-- Newest message first: all messages but the last leave every frame waiting,
and so does the last one, unless all messages share one frame. -/
def Timely (config : StreamingConfig) (criteria : FrameCompletionCriteria) :
    List (TimestampedMessage Message × String) → Prop
  | [] => True
  | newest :: earlier =>
    Waiting config criteria earlier ∧
    (Waiting config criteria (newest :: earlier) ∨
      ∀ call ∈ earlier, config.alignToFrameBoundary call.1.logTime =
        config.alignToFrameBoundary newest.1.logTime)

/-! ### Criteria -/

theorem isComplete_iff (criteria : FrameCompletionCriteria) (received : Finset String) :
    criteria.isComplete received = true ↔
      received ≠ ∅ ∧ ∀ entry ∈ criteria.features.entries,
        entry.2 ≤ (received.filter (· = entry.1)).card := by
  unfold FrameCompletionCriteria.isComplete
  by_cases short : criteria.features.entries.any
      (fun entry => (received.filter (· = entry.1)).card < entry.2) = true
  · simp only [short, if_true, Bool.false_eq_true, false_iff, not_and]
    intro _ enough
    obtain ⟨entry, member, missing⟩ := List.any_eq_true.mp short
    exact absurd (enough entry member) (by simpa using missing)
  · have enough : ∀ entry ∈ criteria.features.entries,
        entry.2 ≤ (received.filter (· = entry.1)).card := by
      intro entry member
      by_contra missing
      exact short (List.any_eq_true.mpr ⟨entry, member, by simpa using missing⟩)
    rw [if_neg short]
    by_cases empty : received = ∅ <;> by_cases free : criteria.features.entries = [] <;>
      simp_all

/-- More features never undo completeness. -/
theorem isComplete_mono (more : received ⊆ received') (complete : criteria.isComplete received = true) :
    criteria.isComplete received' = true := by
  rw [isComplete_iff] at complete ⊢
  obtain ⟨some, enough⟩ := complete
  refine ⟨fun none => some (Finset.subset_empty.mp (none ▸ more)), fun entry member => ?_⟩
  exact (enough entry member).trans (Finset.card_le_card (Finset.filter_subset_filter _ more))

theorem mem_featuresAt {calls : List (TimestampedMessage Message × String)} :
    feature ∈ featuresAt config calls timestamp ↔
      ∃ call ∈ calls, config.alignToFrameBoundary call.1.logTime = timestamp ∧ call.2 = feature := by
  simp only [featuresAt, List.mem_toFinset, List.mem_map, List.mem_filter, decide_eq_true_eq, and_assoc]

theorem featuresAt_cons (call : TimestampedMessage Message × String)
    (calls : List (TimestampedMessage Message × String)) (timestamp : Nat) :
    featuresAt config (call :: calls) timestamp =
      if config.alignToFrameBoundary call.1.logTime = timestamp
      then insert call.2 (featuresAt config calls timestamp)
      else featuresAt config calls timestamp := by
  unfold featuresAt
  rw [List.filter_cons]
  by_cases same : config.alignToFrameBoundary call.1.logTime = timestamp
  · simp [same]
  · simp [same]

theorem Waiting.of_cons {newest : TimestampedMessage Message × String}
    (waiting : Waiting config criteria (newest :: earlier)) : Waiting config criteria earlier := by
  intro call member
  obtain ⟨incomplete, early⟩ := waiting call (List.mem_cons_of_mem _ member)
  refine ⟨?_, fun other later => early other (List.mem_cons_of_mem _ later)⟩
  rw [← Bool.not_eq_true] at incomplete ⊢
  intro complete
  refine incomplete (isComplete_mono ?_ complete)
  intro feature received
  obtain ⟨other, later, named⟩ := mem_featuresAt.mp received
  exact mem_featuresAt.mpr ⟨other, List.mem_cons_of_mem _ later, named⟩

/-! ### What the buffer holds before anything is emitted -/

/-- The buffer has one frame for each aligned timestamp of these messages, with
exactly their features. -/
structure Represents (calls : List (TimestampedMessage Message × String))
    (buffer : FrameAlignmentBuffer Value) : Prop where
  features : ∀ p ∈ buffer.activeFrames,
    p.receivedFeatures = featuresAt buffer.config calls p.timestamp
  used : ∀ p ∈ buffer.activeFrames,
    ∃ call ∈ calls, buffer.config.alignToFrameBoundary call.1.logTime = p.timestamp
  buffered : ∀ call ∈ calls,
    ∃ p ∈ buffer.activeFrames, p.timestamp = buffer.config.alignToFrameBoundary call.1.logTime

theorem featuresAt_unused {calls : List (TimestampedMessage Message × String)}
    (unused : ∀ call ∈ calls, config.alignToFrameBoundary call.1.logTime ≠ timestamp) :
    featuresAt config calls timestamp = ∅ := by
  refine Finset.eq_empty_of_forall_notMem fun feature received => ?_
  obtain ⟨call, member, named, -⟩ := mem_featuresAt.mp received
  exact unused call member named

/-- The entry of a message has received what its frame's earlier messages brought. -/
theorem entry_features {buffer : FrameAlignmentBuffer Value} (represents : Represents calls buffer)
    (located : Entry buffer timestamp before after entry)
    (below : ∀ p ∈ before, p.timestamp < timestamp) (above : ∀ p ∈ after, timestamp < p.timestamp) :
    entry.receivedFeatures = featuresAt buffer.config calls timestamp := by
  cases located with
  | found buffered named =>
    rw [← named]
    exact represents.features entry (buffered ▸ List.mem_append_right _ List.mem_cons_self)
  | created buffered =>
    refine (featuresAt_unused fun call member named => ?_).symm
    obtain ⟨p, present, same⟩ := represents.buffered call member
    rw [buffered, List.mem_append] at present
    rcases present with early | late
    · have := below p early
      omega
    · have := above p late
      omega

theorem Represents.placed {buffer : FrameAlignmentBuffer Value} (represents : Represents calls buffer)
    (extraction : Extraction Message Value) (call : TimestampedMessage Message × String)
    (sorted : Sorted buffer.activeFrames) :
    Represents (call :: calls) (buffer.placed extraction call) := by
  obtain ⟨before, entry, after, located, frames, below, above⟩ :=
    placed_frames extraction buffer call sorted
  obtain ⟨config, -, -, -⟩ := placed_config extraction buffer call
  have entryFeatures := entry_features represents located below above
  have named := located.timestamp_eq
  have around : ∀ p, p ∈ before ∨ p ∈ after → p ∈ buffer.activeFrames ∧
      buffer.config.alignToFrameBoundary call.1.logTime ≠ p.timestamp := by
    intro p side
    refine ⟨located.mem_of_around side, fun same => ?_⟩
    rcases side with early | late
    · have := below p early
      omega
    · have := above p late
      omega
  have split : ∀ p ∈ (buffer.placed extraction call).activeFrames,
      (p ∈ before ∨ p ∈ after) ∨ p = entry.add extraction call.1 call.2 := by
    intro p member
    rw [frames, List.mem_append, List.mem_cons] at member
    tauto
  refine ⟨fun p member => ?_, fun p member => ?_, fun other member => ?_⟩
  · rw [config, featuresAt_cons]
    rcases split p member with side | rfl
    · obtain ⟨present, different⟩ := around p side
      rw [if_neg different]
      exact represents.features p present
    · rw [PartialFrame.add_timestamp, named, if_pos rfl, PartialFrame.add_receivedFeatures,
        entryFeatures]
  · rw [config]
    rcases split p member with side | rfl
    · obtain ⟨other, used, same⟩ := represents.used p (around p side).1
      exact ⟨other, List.mem_cons_of_mem _ used, same⟩
    · exact ⟨call, List.mem_cons_self, named.symm⟩
  · rw [config, frames]
    rcases List.mem_cons.mp member with rfl | earlier
    · exact ⟨_, List.mem_append_right _ List.mem_cons_self, named⟩
    · obtain ⟨p, present, same⟩ := represents.buffered other earlier
      rcases located.cases_of_mem present with side | rfl
      · exact ⟨p, by rw [List.mem_append, List.mem_cons]; tauto, same⟩
      · exact ⟨_, List.mem_append_right _ List.mem_cons_self, same⟩

/-- With the newest log time the largest, nothing is done exactly when every
frame of the messages is still waiting. -/
theorem Represents.waiting_iff {buffer : FrameAlignmentBuffer Value}
    (represents : Represents (newest :: earlier) buffer) (sound : Sound buffer)
    (current : buffer.currentTimestamp = newest.1.logTime)
    (ordered : ∀ call ∈ earlier, call.1.logTime ≤ newest.1.logTime) :
    Waiting buffer.config buffer.completionCriteria (newest :: earlier) ↔
      ∀ p ∈ buffer.activeFrames, buffer.isDone p = false := by
  have latest : ∀ call ∈ newest :: earlier, call.1.logTime ≤ newest.1.logTime := by
    intro call member
    rcases List.mem_cons.mp member with rfl | older
    · exact le_rfl
    · exact ordered call older
  constructor
  · intro waiting p member
    obtain ⟨call, used, named⟩ := represents.used p member
    obtain ⟨incomplete, early⟩ := waiting call used
    rw [named] at incomplete early
    rw [isDone, represents.features p member, incomplete, sound.window p member, current,
      Bool.false_or, decide_eq_false_iff_not, not_le]
    exact early newest List.mem_cons_self
  · intro open_ call member
    obtain ⟨p, present, named⟩ := represents.buffered call member
    have notDone := open_ p present
    rw [isDone, Bool.or_eq_false_iff, decide_eq_false_iff_not, not_le, current,
      sound.window p present, represents.features p present, named] at notDone
    exact ⟨notDone.1, fun other later => (latest other later).trans_lt notDone.2⟩

/-! ### Runs -/

/-- The messages of a run, newest first. -/
def messages (history : History (FrameAlignmentBuffer Value) (TimestampedMessage Message × String)
    (List (AlignedFrame Value))) : List (TimestampedMessage Message × String) :=
  history.map fun e => e.act

/-- Non-decreasing log times. -/
def InLogOrder (calls : List (TimestampedMessage Message × String)) : Prop :=
  calls.Pairwise fun newer older => older.1.logTime ≤ newer.1.logTime

theorem numbered_eq_nil {entries : List (PartialFrame Value)} :
    numbered entries = [] ↔ entries = [] := by
  rw [← List.length_eq_zero_iff, length_numbered, List.length_eq_zero_iff]

theorem checkCompletions_eq_nil_iff (buffer : FrameAlignmentBuffer Value) :
    buffer.checkCompletions.2 = [] ↔ ∀ p ∈ buffer.activeFrames, buffer.isDone p = false := by
  rw [checkCompletions_completed, numbered_eq_nil, List.reverse_eq_nil_iff, List.filter_eq_nil_iff]
  simp only [Bool.not_eq_true]

/-- Nothing has been returned exactly as long as every frame is waiting, and
until then the buffer holds what the messages brought. -/
theorem silent_iff_waiting
    (run : Run (alignment extraction) (withCompletionCriteria config criteria) history buffer)
    (ordered : InLogOrder (messages history)) :
    (returned history = [] ↔ Waiting config criteria (messages history)) ∧
      (returned history = [] → Represents (messages history) buffer) := by
  induction run with
  | start =>
    refine ⟨iff_of_true rfl fun call member => ?_, fun _ => ?_⟩
    · cases member
    · exact ⟨by simp [withCompletionCriteria], by simp [withCompletionCriteria], by simp [messages]⟩
  | @next history s call s' out before moved ih =>
    obtain ⟨rfl, rfl, sound, -⟩ := alignment_reached extraction before
    obtain ⟨below, older⟩ := List.pairwise_cons.mp ordered
    obtain ⟨silent, represents⟩ := ih older
    obtain ⟨sameConfig, sameCriteria, current, -⟩ := placed_config extraction s call
    simp only [alignment, processMessage_eq, Option.some.injEq, Prod.ext_iff] at moved
    obtain ⟨rfl, rfl⟩ := moved
    have last (quiet : returned history = []) :
        Waiting s.config s.completionCriteria (call :: messages history) ↔
          (s.placed extraction call).checkCompletions.2 = [] := by
      have next := (represents quiet).placed extraction call sound.sorted
      have decided := next.waiting_iff (sound.placed extraction call) current below
      rw [sameConfig, sameCriteria] at decided
      rw [decided, checkCompletions_eq_nil_iff]
    rw [returned_cons, List.append_eq_nil_iff]
    refine ⟨⟨fun empty => (last empty.1).mpr empty.2, fun waiting => ?_⟩, fun empty => ?_⟩
    · have quiet := silent.mpr waiting.of_cons
      exact ⟨quiet, (last quiet).mp waiting⟩
    · have next := (represents empty.1).placed extraction call sound.sorted
      have kept : (s.placed extraction call).checkCompletions.1.activeFrames =
          (s.placed extraction call).activeFrames := by
        rw [checkCompletions_frames, List.filter_eq_self]
        simpa using (checkCompletions_eq_nil_iff _).mp empty.2
      exact ⟨kept ▸ next.features, kept ▸ next.used, kept ▸ next.buffered⟩

/-! ### Order and numbering of the emitted stream -/

theorem numbered_indices (entries : List (PartialFrame Value)) :
    (numbered entries).map (·.frameIndex) = List.range (numbered entries).length := by
  apply List.ext_getElem
  · simp
  · intro i h₁ h₂
    simp [numbered]

theorem numbered_timestamps {entries : List (PartialFrame Value)}
    (labelled : ∀ p ∈ entries, p.frame.timestamp = p.timestamp) :
    (numbered entries).map (·.timestamp) = entries.map (·.timestamp) := by
  apply List.ext_getElem
  · simp
  · intro i h₁ h₂
    simpa [numbered] using labelled _ (List.getElem_mem _)

theorem numbered_inOrder {entries : List (PartialFrame Value)}
    (labelled : ∀ p ∈ entries, p.frame.timestamp = p.timestamp) (sorted : Sorted entries) :
    InOrder (numbered entries) := by
  refine ⟨?_, numbered_indices entries⟩
  rw [numbered_timestamps labelled]
  exact List.pairwise_map.mpr sorted

theorem zero_mem_numbered {entries : List (PartialFrame Value)} (some : numbered entries ≠ []) :
    0 ∈ (numbered entries).map (·.frameIndex) := by
  rw [numbered_indices, List.mem_range]
  exact List.length_pos_iff.mpr some

/-- Whoever numbers from zero a second time breaks the numbering. -/
theorem not_inOrder_of_restart {first second : List (AlignedFrame Value)}
    (zero : 0 ∈ first.map (·.frameIndex)) (again : 0 ∈ second.map (·.frameIndex)) :
    ¬InOrder (first ++ second) := by
  intro inOrder
  have distinct : ((first ++ second).map (·.frameIndex)).Nodup := by
    rw [inOrder.2]
    exact List.nodup_range
  rw [List.map_append, List.nodup_append'] at distinct
  exact distinct.2.2 zero again

theorem zero_mem_returned
    (run : Run (alignment extraction) (withCompletionCriteria config criteria) history buffer)
    (some : returned history ≠ []) : 0 ∈ (returned history).map (·.frameIndex) := by
  induction run with
  | start => exact absurd rfl some
  | @next history s call s' out _ moved ih =>
    rw [returned_cons, List.map_append, List.mem_append]
    by_cases quiet : returned history = []
    · right
      rw [returned_cons, quiet, List.nil_append] at some
      simp only [alignment, processMessage_eq, Option.some.injEq, Prod.ext_iff] at moved
      obtain ⟨-, rfl⟩ := moved
      rw [checkCompletions_completed] at some ⊢
      exact zero_mem_numbered some
    · exact Or.inl (ih quiet)

/-- Frames of one timestamp in a sorted buffer are at most one frame. -/
theorem sorted_same_timestamp {frames : List (PartialFrame Value)} (sorted : Sorted frames)
    (same : ∀ p ∈ frames, p.timestamp = timestamp) : frames.length ≤ 1 := by
  match frames, sorted with
  | [], _ => exact Nat.zero_le 1
  | [_], _ => exact le_rfl
  | p :: q :: rest, sorted =>
    have before := (List.pairwise_cons.mp sorted).1 q List.mem_cons_self
    rw [same p List.mem_cons_self, same q (List.mem_cons_of_mem _ List.mem_cons_self)] at before
    exact absurd before (lt_irrefl _)

theorem sorted_reverse_ascending {frames : List (PartialFrame Value)} (sorted : Sorted frames)
    (ascending : (frames.reverse.map (·.timestamp)).Pairwise (· < ·)) : frames.length ≤ 1 := by
  match frames, sorted with
  | [], _ => exact Nat.zero_le 1
  | [_], _ => exact le_rfl
  | p :: q :: rest, sorted =>
    have before := (List.pairwise_cons.mp sorted).1 q List.mem_cons_self
    rw [List.map_reverse, List.pairwise_reverse, List.pairwise_map] at ascending
    have after := (List.pairwise_cons.mp ascending).1 q List.mem_cons_self
    exact absurd before (Nat.lt_asymm after)

/-- The last message of a run, placed but not yet checked. -/
theorem last_call
    (run : Run (alignment extraction) (withCompletionCriteria config criteria) (e :: history) buffer) :
    ∃ s, Run (alignment extraction) (withCompletionCriteria config criteria) history s ∧
      buffer = (s.placed extraction e.act).checkCompletions.1 ∧
      e.out = (s.placed extraction e.act).checkCompletions.2 := by
  cases run with
  | next before moved =>
    simp only [alignment, processMessage_eq, Option.some.injEq, Prod.ext_iff] at moved
    exact ⟨_, before, moved.1.symm, moved.2.symm⟩

/-- A buffer with at most one frame gives out that frame, now or at the flush. -/
theorem single_frame_inOrder (placed : FrameAlignmentBuffer Value)
    (single : placed.activeFrames.length ≤ 1) :
    InOrder (placed.checkCompletions.2 ++ placed.checkCompletions.1.flush.2) := by
  rw [checkCompletions_completed, flush_completed, checkCompletions_frames]
  match frames : placed.activeFrames, single with
  | [], _ => exact ⟨.nil, rfl⟩
  | [p], _ =>
    by_cases done : placed.isDone p = true
    · simp [done, numbered, InOrder]
    · simp [done, numbered, InOrder]

/-- A buffered frame leaves with the check or with the flush, and either of them
numbers from zero. -/
theorem zero_mem_leaving {placed : FrameAlignmentBuffer Value} (filled : placed.activeFrames ≠ []) :
    0 ∈ (placed.checkCompletions.2 ++ placed.checkCompletions.1.flush.2).map (·.frameIndex) := by
  rw [List.map_append, List.mem_append]
  by_cases emitted : placed.checkCompletions.2 = []
  · right
    rw [flush_completed, checkCompletions_frames,
      List.filter_eq_self.mpr (by simpa using (checkCompletions_eq_nil_iff placed).mp emitted)]
    exact zero_mem_numbered (mt numbered_eq_nil.mp filled)
  · left
    rw [checkCompletions_completed] at emitted ⊢
    exact zero_mem_numbered emitted

/-- A check that emits leaves the order intact only if it empties a buffer of one
frame: the flush would number from zero again, and the check emits backwards. -/
theorem single_of_inOrder {placed : FrameAlignmentBuffer Value} (sound : Sound placed)
    (emitted : placed.checkCompletions.2 ≠ [])
    (inOrder : InOrder (placed.checkCompletions.2 ++ placed.checkCompletions.1.flush.2)) :
    placed.activeFrames.length ≤ 1 := by
  have drained : placed.checkCompletions.1.activeFrames = [] := by
    by_contra left_
    refine not_inOrder_of_restart ?_ ?_ inOrder
    · rw [checkCompletions_completed] at emitted ⊢
      exact zero_mem_numbered emitted
    · rw [flush_completed]
      exact zero_mem_numbered (mt numbered_eq_nil.mp left_)
  have all : placed.activeFrames.filter placed.isDone = placed.activeFrames := by
    rw [checkCompletions_frames, List.filter_eq_nil_iff] at drained
    rw [List.filter_eq_self]
    simpa using drained
  have ascending := inOrder.1
  rw [checkCompletions_completed, all, List.map_append,
    numbered_timestamps (by simpa using sound.labelled)] at ascending
  exact sorted_reverse_ascending sound.sorted (List.pairwise_append.mp ascending).1

/-- Two members of a list of at most one element are the same. -/
theorem eq_of_length_le_one {xs : List α} (single : xs.length ≤ 1) (first : x ∈ xs) (second : y ∈ xs) :
    x = y := by
  match xs, single with
  | [only], _ =>
    rw [List.mem_singleton] at first second
    rw [first, second]

theorem inOrder_of_timely
    (run : Run (alignment extraction) (withCompletionCriteria config criteria) history buffer)
    (ordered : InLogOrder (messages history)) (timely : Timely config criteria (messages history)) :
    InOrder (returned history ++ buffer.flush.2) := by
  have sound := (alignment_reached extraction run).sound
  by_cases waiting : Waiting config criteria (messages history)
  · rw [(silent_iff_waiting run ordered).1.mpr waiting, List.nil_append, flush_completed]
    exact numbered_inOrder sound.labelled sound.sorted
  cases history with
  | nil => exact absurd (fun call member => absurd member List.not_mem_nil) waiting
  | cons e history =>
    obtain ⟨earlier, last⟩ := timely
    obtain ⟨s, before, rfl, out⟩ := last_call run
    obtain ⟨rfl, rfl, reached, -⟩ := alignment_reached extraction before
    have silent := silent_iff_waiting before (List.pairwise_cons.mp ordered).2
    have quiet := silent.1.mpr earlier
    have represents := (silent.2 quiet).placed extraction e.act reached.sorted
    have sameConfig := (placed_config extraction s e.act).1
    have oneFrame : ∀ p ∈ (s.placed extraction e.act).activeFrames,
        p.timestamp = s.config.alignToFrameBoundary e.act.1.logTime := by
      intro p member
      obtain ⟨call, used, named⟩ := represents.used p member
      rw [sameConfig] at named
      rcases List.mem_cons.mp used with rfl | older
      · exact named.symm
      · exact named.symm.trans (last.resolve_left waiting call older)
    rw [returned_cons, quiet, List.nil_append, out]
    exact single_frame_inOrder _
      (sorted_same_timestamp (reached.placed extraction e.act).sorted oneFrame)

theorem timely_of_inOrder
    (run : Run (alignment extraction) (withCompletionCriteria config criteria) history buffer)
    (ordered : InLogOrder (messages history)) (inOrder : InOrder (returned history ++ buffer.flush.2)) :
    Timely config criteria (messages history) := by
  cases history with
  | nil => trivial
  | cons e history =>
    obtain ⟨s, before, rfl, out⟩ := last_call run
    obtain ⟨rfl, rfl, reached, -⟩ := alignment_reached extraction before
    have silent := silent_iff_waiting before (List.pairwise_cons.mp ordered).2
    have sameConfig := (placed_config extraction s e.act).1
    have filled : (s.placed extraction e.act).activeFrames ≠ [] := by
      obtain ⟨p, member, -⟩ := placed_holds extraction e.act reached.sorted
      exact List.ne_nil_of_mem member
    rw [returned_cons, out, List.append_assoc] at inOrder
    have quiet : returned history = [] := by
      by_contra earlierOut
      exact not_inOrder_of_restart (zero_mem_returned before earlierOut) (zero_mem_leaving filled) inOrder
    rw [quiet, List.nil_append] at inOrder
    refine ⟨silent.1.mp quiet, ?_⟩
    by_cases waiting : Waiting s.config s.completionCriteria (messages (e :: history))
    · exact Or.inl waiting
    · refine Or.inr fun call older => ?_
      have emitted : (s.placed extraction e.act).checkCompletions.2 ≠ [] := by
        intro none
        apply waiting
        apply (silent_iff_waiting run ordered).1.mp
        rw [returned_cons, quiet, out, none, List.nil_append]
      have single := single_of_inOrder (reached.placed extraction e.act) emitted inOrder
      have represents := (silent.2 quiet).placed extraction e.act reached.sorted
      obtain ⟨p, inP, atP⟩ := represents.buffered call (List.mem_cons_of_mem _ older)
      obtain ⟨q, inQ, atQ⟩ := represents.buffered e.act List.mem_cons_self
      rw [sameConfig] at atP atQ
      rw [← atP, ← atQ, eq_of_length_le_one single inP inQ]

/-- Over every run in log order, the emitted stream is strictly ascending in time
and numbered 0, 1, 2 and so on exactly when the messages are timely. -/
theorem emission_inOrder_iff (extraction : Extraction Message Value) (config : StreamingConfig)
    (criteria : FrameCompletionCriteria) (_ : 1 ≤ config.fps ∧ config.fps ≤ 1000000000)
    (history : History (FrameAlignmentBuffer Value) (TimestampedMessage Message × String)
      (List (AlignedFrame Value)))
    (buffer : FrameAlignmentBuffer Value)
    (run : Run (alignment extraction) (withCompletionCriteria config criteria) history buffer)
    (ordered : InLogOrder (messages history)) :
    InOrder (returned history ++ buffer.flush.2) ↔ Timely config criteria (messages history) :=
  ⟨timely_of_inOrder run ordered, inOrder_of_timely run ordered⟩

theorem emission_inOrder_iff_two_cameras :
    ∃ history buffer, Run (alignment fieldless)
        (withCompletionCriteria (.withFps 30) cameraAndState) history buffer ∧
      history.length = 2 ∧ InOrder (returned history ++ buffer.flush.2) := by
  obtain ⟨history, buffer, run, seen⟩ := Run.of_observation (alignment fieldless)
    (withCompletionCriteria (.withFps 30) cameraAndState)
    [(⟨0, ()⟩, "camera"), (⟨40000000, ()⟩, "camera")] (fun reached => messages reached.1)
    [(⟨40000000, ()⟩, "camera"), (⟨0, ()⟩, "camera")] (by decide +kernel)
  have count : history.length = 2 := by
    have := congrArg List.length seen
    simpa [messages] using this
  have ordered : InLogOrder (messages history) := by
    rw [seen, InLogOrder]
    decide
  refine ⟨history, buffer, run, count, ?_⟩
  rw [emission_inOrder_iff fieldless (.withFps 30) cameraAndState (by decide) history buffer run ordered,
    seen]
  unfold Timely Waiting
  decide +kernel

/-- Three frames wait for a state that never comes; the message that closes their
windows gets them newest first, and the flush starts its numbering over. -/
theorem emission_reversed_and_renumbered :
    ∃ history buffer, Run (alignment fieldless)
        (withCompletionCriteria (.withFps 30) cameraAndState) history buffer ∧
      InLogOrder (messages history) ∧
      (returned history ++ buffer.flush.2).map (·.timestamp) =
        [66666666, 33333333, 0, 199999998] ∧
      (returned history ++ buffer.flush.2).map (·.frameIndex) = [0, 1, 2, 0] ∧
      ¬InOrder (returned history ++ buffer.flush.2) := by
  obtain ⟨history, buffer, run, seen⟩ := Run.of_observation (alignment fieldless)
    (withCompletionCriteria (.withFps 30) cameraAndState)
    [(⟨0, ()⟩, "camera"), (⟨33333333, ()⟩, "camera"), (⟨66666666, ()⟩, "camera"),
      (⟨200000000, ()⟩, "camera")]
    (fun reached => ((messages reached.1).map (·.1.logTime),
      (returned reached.1 ++ reached.2.flush.2).map (·.timestamp),
      (returned reached.1 ++ reached.2.flush.2).map (·.frameIndex)))
    ([200000000, 66666666, 33333333, 0], [66666666, 33333333, 0, 199999998], [0, 1, 2, 0])
    (by decide +kernel)
  simp only [Prod.mk.injEq] at seen
  obtain ⟨logTimes, timestamps, indices⟩ := seen
  refine ⟨history, buffer, run, ?_, timestamps, indices, fun inOrder => ?_⟩
  · have : ((messages history).map (·.1.logTime)).Pairwise (fun newer older => older ≤ newer) := by
      rw [logTimes]
      decide
    exact List.pairwise_map.mp this
  · have ascending := inOrder.1
    rw [timestamps] at ascending
    revert ascending
    decide

end Roboflow.Alignment
