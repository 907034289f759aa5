import Roboflow.Alignment.Buffer

/-! What one call does to the buffered frames, and the representation invariant:
the vector stays strictly sorted by timestamp, every timestamp lies on the frame
grid, and no frame that received a message disappears without being returned. -/
namespace Roboflow.Alignment
open Library

variable {Message Value : Type} {buffer : FrameAlignmentBuffer Value} {config : StreamingConfig}
  {criteria : FrameCompletionCriteria} {extraction : Extraction Message Value}
  {call : TimestampedMessage Message × String}

/-! ### Emitting -/

/-- The frames of one call, numbered from zero in the order it emits them. -/
def numbered (entries : List (PartialFrame Value)) : List (AlignedFrame Value) :=
  entries.mapIdx fun i entry => { entry.frame with frameIndex := i }

@[simp] theorem length_numbered (entries : List (PartialFrame Value)) :
    (numbered entries).length = entries.length :=
  List.length_mapIdx

theorem emit_frames (criteria : FrameCompletionCriteria) (entries : List (PartialFrame Value))
    (sent : AlignmentStats × List (AlignedFrame Value)) :
    (entries.foldl (emit criteria) sent).2 = sent.2 ++
      entries.mapIdx fun i entry => { entry.frame with frameIndex := sent.2.length + i } := by
  induction entries generalizing sent with
  | nil => simp
  | cons entry rest ih =>
    rw [List.foldl_cons, ih]
    simp only [emit, List.length_append, List.length_singleton, List.mapIdx_cons, Nat.add_zero,
      List.append_assoc, List.singleton_append]
    congr 3
    funext i entry
    rw [Nat.add_assoc, Nat.add_comm 1 i]

/-- What the counters say about the frames counted so far. -/
def Counted (stats : AlignmentStats) (frames : Nat) : Prop :=
  stats.framesProcessed = stats.normalCompletions + stats.forceCompletions ∧
    stats.framesProcessed = frames

theorem emit_counted (criteria : FrameCompletionCriteria) (entries : List (PartialFrame Value))
    (sent : AlignmentStats × List (AlignedFrame Value)) (counted : Counted sent.1 frames) :
    Counted (entries.foldl (emit criteria) sent).1 (frames + entries.length) := by
  induction entries generalizing sent frames with
  | nil => exact counted
  | cons entry rest ih =>
    have one : Counted (emit criteria sent entry).1 (frames + 1) := by
      obtain ⟨split, total⟩ := counted
      simp only [emit, Counted, AlignmentStats.recordNormalCompletion,
        AlignmentStats.recordForceCompletion]
      split <;> exact ⟨by simp only; omega, by simp only; omega⟩
    rw [List.foldl_cons, List.length_cons, Nat.add_comm rest.length 1, ← Nat.add_assoc]
    exact ih _ one

theorem counted_updatePeakBuffer (counted : Counted stats frames) (size : Nat) :
    Counted (stats.updatePeakBuffer size) frames := by
  unfold AlignmentStats.updatePeakBuffer
  split <;> exact counted

/-! ### The removal loop -/

/-- Positions beyond the first entry act on the rest of the vector. -/
theorem removeAt_succ (criteria : FrameCompletionCriteria) (first : PartialFrame Value)
    (indices : List Nat) (frames : List (PartialFrame Value))
    (sent : AlignmentStats × List (AlignedFrame Value)) :
    (indices.map (· + 1)).foldl (removeAt criteria) (first :: frames, sent) =
      (first :: (indices.foldl (removeAt criteria) (frames, sent)).1,
        (indices.foldl (removeAt criteria) (frames, sent)).2) := by
  induction indices generalizing frames sent with
  | nil => rfl
  | cons idx rest ih =>
    rw [List.map_cons, List.foldl_cons, List.foldl_cons]
    have shifted : removeAt criteria (first :: frames, sent) (idx + 1) =
        (first :: (removeAt criteria (frames, sent) idx).1,
          (removeAt criteria (frames, sent) idx).2) := by
      simp only [removeAt, List.getElem?_cons_succ]
      split <;> simp
    rw [shifted, ih]

/-- Removing the collected positions from the back leaves the other entries and
emits the collected ones, last entry first. -/
theorem removeAt_collected (criteria : FrameCompletionCriteria) (done : PartialFrame Value → Bool)
    (frames : List (PartialFrame Value)) (sent : AlignmentStats × List (AlignedFrame Value)) :
    (((frames.zipIdx.filter fun entry => done entry.1).map Prod.snd).reverse).foldl
        (removeAt criteria) (frames, sent) =
      (frames.filter fun entry => !done entry,
        (frames.filter done).reverse.foldl (emit criteria) sent) := by
  induction frames generalizing sent with
  | nil => rfl
  | cons first rest ih =>
    have shifted : ((rest.zipIdx 1).filter fun entry => done entry.1).map Prod.snd =
        ((rest.zipIdx.filter fun entry => done entry.1).map Prod.snd).map (· + 1) := by
      rw [List.zipIdx_succ, List.filter_map, List.map_map, List.map_map]
      rfl
    rw [List.zipIdx_cons, List.filter_cons, Nat.zero_add]
    generalize (rest.zipIdx.filter fun entry => done entry.1).map Prod.snd = inner at shifted ih
    by_cases complete : done first = true
    · simp only [complete, if_true, List.map_cons, shifted, List.reverse_cons, ← List.map_reverse,
        List.foldl_append, removeAt_succ, ih]
      simp [removeAt, complete]
    · simp only [complete, Bool.false_eq_true, if_false, shifted, ← List.map_reverse, removeAt_succ, ih]
      simp [complete]

/-- What is inserted at a position can be changed at that position. -/
theorem modify_insertIdx (f : α → α) (x : α) (xs : List α) (i : Nat) (inside : i ≤ xs.length) :
    (xs.insertIdx i x).modify i f = xs.take i ++ f x :: xs.drop i := by
  induction xs generalizing i with
  | nil =>
    have zero : i = 0 := Nat.le_zero.mp inside
    subst zero
    rfl
  | cons first rest ih =>
    cases i with
    | zero => rfl
    | succ i => simpa using ih i (by simpa using inside)

namespace FrameAlignmentBuffer

theorem checkCompletions_frames (buffer : FrameAlignmentBuffer Value) :
    buffer.checkCompletions.1.activeFrames =
      buffer.activeFrames.filter fun entry => !buffer.isDone entry := by
  simp only [checkCompletions, removeAt_collected]

theorem checkCompletions_completed (buffer : FrameAlignmentBuffer Value) :
    buffer.checkCompletions.2 = numbered (buffer.activeFrames.filter buffer.isDone).reverse := by
  simp only [checkCompletions, removeAt_collected, emit_frames, List.length_nil, Nat.zero_add,
    List.nil_append, numbered]

theorem checkCompletions_counted (buffer : FrameAlignmentBuffer Value)
    (counted : Counted buffer.stats frames) :
    Counted buffer.checkCompletions.1.stats (frames + buffer.checkCompletions.2.length) := by
  have emitted := emit_counted buffer.completionCriteria
    (buffer.activeFrames.filter buffer.isDone).reverse (buffer.stats, []) counted
  rw [checkCompletions_completed, length_numbered]
  simp only [checkCompletions, removeAt_collected]
  exact counted_updatePeakBuffer emitted _

theorem flush_completed (buffer : FrameAlignmentBuffer Value) :
    buffer.flush.2 = numbered buffer.activeFrames := by
  simp only [flush, emit_frames, List.length_nil, Nat.zero_add, List.nil_append, numbered]

theorem flush_counted (buffer : FrameAlignmentBuffer Value) (counted : Counted buffer.stats frames) :
    Counted buffer.flush.1.stats (frames + buffer.flush.2.length) := by
  rw [flush_completed, length_numbered]
  exact emit_counted buffer.completionCriteria buffer.activeFrames (buffer.stats, []) counted

/-! ### Placing a message -/

/-- The buffer as `process_message` leaves it for the completion check. -/
def placed (extraction : Extraction Message Value) (buffer : FrameAlignmentBuffer Value)
    (call : TimestampedMessage Message × String) : FrameAlignmentBuffer Value :=
  let found := { buffer with currentTimestamp := call.1.logTime }.findOrCreateFrame
    (buffer.config.alignToFrameBoundary call.1.logTime)
  { found.1 with activeFrames := found.1.activeFrames.modify found.2 (.add extraction call.1 call.2) }

theorem processMessage_eq (extraction : Extraction Message Value) (buffer : FrameAlignmentBuffer Value)
    (call : TimestampedMessage Message × String) :
    buffer.processMessage extraction call.1 call.2 = (buffer.placed extraction call).checkCompletions :=
  rfl

/-- Strictly ascending timestamps. -/
def Sorted (frames : List (PartialFrame Value)) : Prop :=
  frames.Pairwise fun a b => a.timestamp < b.timestamp

/-- The entry a message goes to: the buffered frame of its timestamp, or a new one. -/
inductive Entry (buffer : FrameAlignmentBuffer Value) (timestamp : Nat)
    (before after : List (PartialFrame Value)) : PartialFrame Value → Prop where
  | found (buffered : buffer.activeFrames = before ++ entry :: after)
      (named : entry.timestamp = timestamp) : Entry buffer timestamp before after entry
  | created (buffered : buffer.activeFrames = before ++ after) :
      Entry buffer timestamp before after (.new buffer.nextFrameIndex timestamp
        (saturatingAdd timestamp buffer.config.completionWindowNs))

/-- One entry changes, and it stands between the earlier and the later frames. -/
theorem placed_frames (extraction : Extraction Message Value) (buffer : FrameAlignmentBuffer Value)
    (call : TimestampedMessage Message × String) (sorted : Sorted buffer.activeFrames) :
    ∃ before entry after,
      Entry buffer (buffer.config.alignToFrameBoundary call.1.logTime) before after entry ∧
      (buffer.placed extraction call).activeFrames =
        before ++ entry.add extraction call.1 call.2 :: after ∧
      (∀ p ∈ before, p.timestamp < buffer.config.alignToFrameBoundary call.1.logTime) ∧
      ∀ p ∈ after, buffer.config.alignToFrameBoundary call.1.logTime < p.timestamp := by
  generalize aligned : buffer.config.alignToFrameBoundary call.1.logTime = timestamp
  have answer := BinarySearch.search_answer sorted timestamp
  cases position : BinarySearch.search timestamp PartialFrame.timestamp buffer.activeFrames with
  | ok idx =>
    rw [position] at answer
    obtain ⟨entry, read, named⟩ := answer
    obtain ⟨inside, at_idx⟩ := List.getElem?_eq_some_iff.mp read
    have parts : buffer.activeFrames =
        buffer.activeFrames.take idx ++ entry :: buffer.activeFrames.drop (idx + 1) := by
      rw [← at_idx, ← List.drop_eq_getElem_cons inside, List.take_append_drop]
    refine ⟨_, entry, _, .found parts named, ?_, ?_, ?_⟩
    · simp only [placed, findOrCreateFrame, aligned, position]
      rw [List.modify_eq_take_cons_drop inside, at_idx]
    · intro p member
      rw [Sorted, parts, List.pairwise_append] at sorted
      exact named ▸ sorted.2.2 p member entry List.mem_cons_self
    · intro p member
      rw [Sorted, parts, List.pairwise_append, List.pairwise_cons] at sorted
      exact named ▸ sorted.2.1.1 p member
  | error idx =>
    rw [position] at answer
    obtain ⟨inside, below, above⟩ := answer
    refine ⟨_, _, _, .created (List.take_append_drop idx _).symm, ?_, below, above⟩
    simp only [placed, findOrCreateFrame, aligned, position]
    exact modify_insertIdx _ _ _ _ inside

theorem Entry.timestamp_eq (located : Entry buffer timestamp before after entry) :
    entry.timestamp = timestamp := by
  cases located with
  | found _ named => exact named
  | created _ => rfl

/-- The frames around the entry were buffered before. -/
theorem Entry.mem_of_around (located : Entry buffer timestamp before after entry)
    (around : p ∈ before ∨ p ∈ after) : p ∈ buffer.activeFrames := by
  cases located with
  | found buffered _ =>
    rw [buffered, List.mem_append, List.mem_cons]
    exact around.imp_right Or.inr
  | created buffered =>
    rw [buffered, List.mem_append]
    exact around

/-- A frame buffered before is around the entry or is the entry. -/
theorem Entry.cases_of_mem (located : Entry buffer timestamp before after entry)
    (member : p ∈ buffer.activeFrames) : (p ∈ before ∨ p ∈ after) ∨ p = entry := by
  cases located with
  | found buffered _ =>
    rw [buffered, List.mem_append, List.mem_cons] at member
    rcases member with early | rfl | late
    · exact Or.inl (Or.inl early)
    · exact Or.inr rfl
    · exact Or.inl (Or.inr late)
  | created buffered =>
    rw [buffered, List.mem_append] at member
    exact Or.inl member

theorem placed_config (extraction : Extraction Message Value) (buffer : FrameAlignmentBuffer Value)
    (call : TimestampedMessage Message × String) :
    (buffer.placed extraction call).config = buffer.config ∧
    (buffer.placed extraction call).completionCriteria = buffer.completionCriteria ∧
    (buffer.placed extraction call).currentTimestamp = call.1.logTime ∧
    (buffer.placed extraction call).stats = buffer.stats := by
  simp only [placed, findOrCreateFrame]
  split <;> exact ⟨rfl, rfl, rfl, rfl⟩

end FrameAlignmentBuffer

section Add
variable (extraction : Extraction Message Value) (message : TimestampedMessage Message)
  (feature : String) (entry : PartialFrame Value)

@[simp] theorem PartialFrame.add_timestamp :
    (entry.add extraction message feature).timestamp = entry.timestamp := rfl

@[simp] theorem PartialFrame.add_eligibleTimestamp :
    (entry.add extraction message feature).eligibleTimestamp = entry.eligibleTimestamp := rfl

@[simp] theorem PartialFrame.add_frame_timestamp :
    (entry.add extraction message feature).frame.timestamp = entry.frame.timestamp := rfl

@[simp] theorem PartialFrame.add_receivedFeatures :
    (entry.add extraction message feature).receivedFeatures = insert feature entry.receivedFeatures :=
  rfl

end Add

/-! ### The representation invariant -/

namespace FrameAlignmentBuffer

/-- Sorted by timestamp, on the frame grid, and each frame labelled with its own
timestamp and window. -/
structure Sound (buffer : FrameAlignmentBuffer Value) : Prop where
  sorted : Sorted buffer.activeFrames
  onGrid : ∀ p ∈ buffer.activeFrames, buffer.config.frameIntervalNs ∣ p.timestamp
  labelled : ∀ p ∈ buffer.activeFrames, p.frame.timestamp = p.timestamp
  window : ∀ p ∈ buffer.activeFrames,
    p.eligibleTimestamp = saturatingAdd p.timestamp buffer.config.completionWindowNs

theorem aligned_onGrid (config : StreamingConfig) (timestamp : Nat) :
    config.frameIntervalNs ∣ config.alignToFrameBoundary timestamp :=
  Nat.dvd_mul_left _ _

/-- What holds of every buffered frame, of the entry's timestamp and label and of
a changed entry holds of every frame once the message is placed. -/
theorem placed_forall {P : PartialFrame Value → Prop} (sorted : Sorted buffer.activeFrames)
    (held : ∀ p ∈ buffer.activeFrames, P p)
    (fresh : P (.new buffer.nextFrameIndex (buffer.config.alignToFrameBoundary call.1.logTime)
      (saturatingAdd (buffer.config.alignToFrameBoundary call.1.logTime)
        buffer.config.completionWindowNs)))
    (changed : ∀ entry, P entry → P (entry.add extraction call.1 call.2)) :
    ∀ p ∈ (buffer.placed extraction call).activeFrames, P p := by
  obtain ⟨before, entry, after, located, frames, -, -⟩ := placed_frames extraction buffer call sorted
  have entryHeld : P entry := by
    cases located with
    | found buffered _ => exact held entry (buffered ▸ List.mem_append_right _ List.mem_cons_self)
    | created _ => exact fresh
  intro p member
  rw [frames, List.mem_append, List.mem_cons] at member
  rcases member with early | rfl | late
  · exact held p (located.mem_of_around (Or.inl early))
  · exact changed entry entryHeld
  · exact held p (located.mem_of_around (Or.inr late))

theorem placed_sorted (extraction : Extraction Message Value)
    (call : TimestampedMessage Message × String) {buffer : FrameAlignmentBuffer Value}
    (sorted : Sorted buffer.activeFrames) : Sorted (buffer.placed extraction call).activeFrames := by
  obtain ⟨before, entry, after, located, frames, below, above⟩ :=
    placed_frames extraction buffer call sorted
  have order : Sorted before ∧ Sorted after ∧ ∀ p ∈ before, ∀ q ∈ after, p.timestamp < q.timestamp := by
    refine ⟨?_, ?_, fun p early q late => (below p early).trans (above q late)⟩
    · cases located with
      | found buffered _ => exact (List.pairwise_append.mp (buffered ▸ sorted)).1
      | created buffered => exact (List.pairwise_append.mp (buffered ▸ sorted)).1
    · cases located with
      | found buffered _ =>
        exact (List.pairwise_cons.mp (List.pairwise_append.mp (buffered ▸ sorted)).2.1).2
      | created buffered => exact (List.pairwise_append.mp (buffered ▸ sorted)).2.1
  have named := located.timestamp_eq
  rw [Sorted, frames, List.pairwise_append, List.pairwise_cons]
  refine ⟨order.1, ⟨fun q late => ?_, order.2.1⟩, fun p early q member => ?_⟩
  · rw [PartialFrame.add_timestamp, named]
    exact above q late
  · rcases List.mem_cons.mp member with rfl | late
    · rw [PartialFrame.add_timestamp, named]
      exact below p early
    · exact order.2.2 p early q late

theorem Sound.placed (sound : Sound buffer) (extraction : Extraction Message Value)
    (call : TimestampedMessage Message × String) : Sound (buffer.placed extraction call) := by
  obtain ⟨config, -, -, -⟩ := placed_config extraction buffer call
  refine ⟨placed_sorted extraction call sound.sorted, ?_, ?_, ?_⟩
  · rw [config]
    exact placed_forall sound.sorted sound.onGrid (aligned_onGrid _ _) fun entry held => held
  · exact placed_forall sound.sorted sound.labelled rfl fun entry held => held
  · rw [config]
    exact placed_forall sound.sorted sound.window rfl fun entry held => held

theorem Sound.checkCompletions (sound : Sound buffer) : Sound buffer.checkCompletions.1 := by
  have kept : ∀ p ∈ buffer.checkCompletions.1.activeFrames, p ∈ buffer.activeFrames := by
    intro p member
    rw [checkCompletions_frames] at member
    exact (List.mem_filter.mp member).1
  refine ⟨?_, fun p member => sound.onGrid p (kept p member),
    fun p member => sound.labelled p (kept p member), fun p member => sound.window p (kept p member)⟩
  rw [checkCompletions_frames]
  exact sound.sorted.filter _

theorem sound_withCompletionCriteria (config : StreamingConfig) (criteria : FrameCompletionCriteria) :
    Sound (withCompletionCriteria config criteria : FrameAlignmentBuffer Value) :=
  ⟨.nil, by simp [withCompletionCriteria], by simp [withCompletionCriteria],
    by simp [withCompletionCriteria]⟩

/-! ### No frame is lost -/

/-- A frame of this timestamp is buffered and has received the feature. -/
def Holds (buffer : FrameAlignmentBuffer Value) (timestamp : Nat) (feature : String) : Prop :=
  ∃ p ∈ buffer.activeFrames, p.timestamp = timestamp ∧ feature ∈ p.receivedFeatures

theorem placed_holds (extraction : Extraction Message Value)
    (call : TimestampedMessage Message × String) (sorted : Sorted buffer.activeFrames) :
    Holds (buffer.placed extraction call) (buffer.config.alignToFrameBoundary call.1.logTime) call.2 := by
  obtain ⟨before, entry, after, located, frames, -, -⟩ := placed_frames extraction buffer call sorted
  refine ⟨entry.add extraction call.1 call.2, ?_, located.timestamp_eq, Finset.mem_insert_self _ _⟩
  rw [frames]
  exact List.mem_append_right _ List.mem_cons_self

theorem Holds.placed (held : Holds buffer timestamp feature) (extraction : Extraction Message Value)
    (call : TimestampedMessage Message × String) (sorted : Sorted buffer.activeFrames) :
    Holds (buffer.placed extraction call) timestamp feature := by
  obtain ⟨before, entry, after, located, frames, -, -⟩ := placed_frames extraction buffer call sorted
  obtain ⟨p, member, named, received⟩ := held
  rcases located.cases_of_mem member with around | rfl
  · refine ⟨p, ?_, named, received⟩
    rw [frames, List.mem_append, List.mem_cons]
    exact around.imp_right Or.inr
  · refine ⟨p.add extraction call.1 call.2, ?_, named, Finset.mem_insert_of_mem received⟩
    rw [frames]
    exact List.mem_append_right _ List.mem_cons_self

theorem mem_numbered {entries : List (PartialFrame Value)} (member : p ∈ entries) :
    ∃ frame ∈ numbered entries, frame.timestamp = p.frame.timestamp := by
  obtain ⟨i, inside, rfl⟩ := List.mem_iff_getElem.mp member
  exact ⟨_, List.mem_mapIdx.mpr ⟨i, inside, rfl⟩, rfl⟩

/-- The completion check returns what it removes. -/
theorem Holds.checkCompletions (held : Holds buffer timestamp feature) (sound : Sound buffer) :
    Holds buffer.checkCompletions.1 timestamp feature ∨
      ∃ frame ∈ buffer.checkCompletions.2, frame.timestamp = timestamp := by
  obtain ⟨p, member, rfl, received⟩ := held
  by_cases done : buffer.isDone p = true
  · right
    rw [checkCompletions_completed, ← sound.labelled p member]
    exact mem_numbered (List.mem_reverse.mpr (List.mem_filter.mpr ⟨member, done⟩))
  · left
    refine ⟨p, ?_, rfl, received⟩
    rw [checkCompletions_frames]
    exact List.mem_filter.mpr ⟨member, by simpa using done⟩

theorem Holds.flush (held : Holds buffer timestamp feature) (sound : Sound buffer) :
    ∃ frame ∈ buffer.flush.2, frame.timestamp = timestamp := by
  obtain ⟨p, member, rfl, -⟩ := held
  rw [flush_completed, ← sound.labelled p member]
  exact mem_numbered member

end FrameAlignmentBuffer

/-! ### Runs -/

open FrameAlignmentBuffer

/-- What every sequence of calls keeps of the buffer and its counters. -/
structure Reached (config : StreamingConfig) (criteria : FrameCompletionCriteria)
    (history : History (FrameAlignmentBuffer Value) (TimestampedMessage Message × String)
      (List (AlignedFrame Value)))
    (buffer : FrameAlignmentBuffer Value) : Prop where
  config_eq : buffer.config = config
  criteria_eq : buffer.completionCriteria = criteria
  sound : Sound buffer
  counted : Counted buffer.stats (returned history).length

theorem returned_cons (e : Transition σ α (List (AlignedFrame Value))) (history : History σ α _) :
    returned (e :: history) = returned history ++ e.out := by
  simp [returned]

theorem alignment_reached (extraction : Extraction Message Value)
    (run : Run (alignment extraction) (withCompletionCriteria config criteria) history buffer) :
    Reached config criteria history buffer := by
  induction run with
  | start =>
    exact ⟨rfl, rfl, sound_withCompletionCriteria config criteria, rfl, rfl⟩
  | @next history s call s' out _ moved ih =>
    obtain ⟨config_eq, criteria_eq, sound, counted⟩ := ih
    obtain ⟨sameConfig, sameCriteria, -, sameStats⟩ := placed_config extraction s call
    simp only [alignment, processMessage_eq, Option.some.injEq, Prod.ext_iff] at moved
    obtain ⟨rfl, rfl⟩ := moved
    refine ⟨sameConfig.trans config_eq, sameCriteria.trans criteria_eq,
      (sound.placed extraction call).checkCompletions, ?_⟩
    rw [returned_cons, List.length_append]
    exact checkCompletions_counted _ (sameStats ▸ counted)

/-- Every message of the history still has its frame, or some call from its own
on has returned it. -/
def Kept (history : History (FrameAlignmentBuffer Value) (TimestampedMessage Message × String)
      (List (AlignedFrame Value)))
    (buffer : FrameAlignmentBuffer Value) : Prop :=
  ∀ newer e older, history = newer ++ e :: older →
    Holds buffer (buffer.config.alignToFrameBoundary e.act.1.logTime) e.act.2 ∨
    ∃ frame ∈ returned (newer ++ [e]),
      frame.timestamp = buffer.config.alignToFrameBoundary e.act.1.logTime

theorem alignment_kept (extraction : Extraction Message Value)
    (run : Run (alignment extraction) (withCompletionCriteria config criteria) history buffer) :
    Kept history buffer := by
  induction run with
  | start => intro newer e older split; simp at split
  | @next history s call s' out before moved ih =>
    have sound := (alignment_reached extraction before).sound
    obtain ⟨sameConfig, -, -, -⟩ := placed_config extraction s call
    simp only [alignment, processMessage_eq, Option.some.injEq, Prod.ext_iff] at moved
    obtain ⟨rfl, rfl⟩ := moved
    have config_eq : (s.placed extraction call).checkCompletions.1.config = s.config := sameConfig
    intro newer e older split
    rw [config_eq]
    cases newer with
    | nil =>
      simp only [List.nil_append, List.cons.injEq] at split
      obtain ⟨rfl, -⟩ := split
      rw [List.nil_append, returned_cons]
      exact ((placed_holds extraction call sound.sorted).checkCompletions
        (sound.placed extraction call)).imp_right fun ⟨frame, sent, named⟩ =>
          ⟨frame, List.mem_append_right _ sent, named⟩
    | cons first newer =>
      simp only [List.cons_append, List.cons.injEq] at split
      obtain ⟨rfl, split⟩ := split
      rw [List.cons_append, returned_cons]
      rcases ih newer e older split with held | ⟨frame, sent, named⟩
      · exact ((held.placed extraction call sound.sorted).checkCompletions
          (sound.placed extraction call)).imp_right fun ⟨frame, sent, named⟩ =>
            ⟨frame, List.mem_append_right _ sent, named⟩
      · exact Or.inr ⟨frame, List.mem_append_left _ sent, named⟩

/-- Over every sequence of messages, in any order of their log times, followed
by a flush: the buffer is sorted and on the frame grid, each message's frame is
buffered or returned, the flush leaves nothing, and the counters agree with the
number of frames returned. -/
theorem alignment_keeps_frames (extraction : Extraction Message Value) (config : StreamingConfig)
    (criteria : FrameCompletionCriteria) (rate : 1 ≤ config.fps ∧ config.fps ≤ 1000000000)
    (history : History (FrameAlignmentBuffer Value) (TimestampedMessage Message × String)
      (List (AlignedFrame Value)))
    (buffer : FrameAlignmentBuffer Value)
    (run : Run (alignment extraction) (withCompletionCriteria config criteria) history buffer) :
    Sorted buffer.activeFrames ∧
    0 < config.frameIntervalNs ∧
    (∀ p ∈ buffer.activeFrames, config.frameIntervalNs ∣ p.timestamp) ∧
    (∀ newer e older, history = newer ++ e :: older →
      Holds buffer (config.alignToFrameBoundary e.act.1.logTime) e.act.2 ∨
      ∃ frame ∈ returned (newer ++ [e]),
        frame.timestamp = config.alignToFrameBoundary e.act.1.logTime) ∧
    (∀ newer e older, history = newer ++ e :: older →
      ∃ frame ∈ returned (newer ++ [e]) ++ buffer.flush.2,
        frame.timestamp = config.alignToFrameBoundary e.act.1.logTime) ∧
    buffer.flush.1.activeFrames = [] ∧
    Counted buffer.stats (returned history).length ∧
    Counted buffer.flush.1.stats (returned history ++ buffer.flush.2).length := by
  obtain ⟨rfl, rfl, sound, counted⟩ := alignment_reached extraction run
  have kept := alignment_kept extraction run
  have interval : 0 < buffer.config.frameIntervalNs := Nat.div_pos rate.2 rate.1
  refine ⟨sound.sorted, interval, sound.onGrid, kept, fun newer e older split => ?_, rfl, counted, ?_⟩
  · rcases kept newer e older split with held | ⟨frame, sent, named⟩
    · obtain ⟨frame, sent, named⟩ := held.flush sound
      exact ⟨frame, List.mem_append_right _ sent, named⟩
    · exact ⟨frame, List.mem_append_left _ sent, named⟩
  · rw [List.length_append]
    exact buffer.flush_counted counted

/-- Messages without fields: there is nothing to extract from them. -/
def fieldless : Extraction Unit Nat where
  processImageData _ _ := (none, none, false)
  numericValues _ := []

/-- A frame waits for both features. -/
def cameraAndState : FrameCompletionCriteria := ⟨(Kv.empty.put "camera" 1).put "state" 1⟩

theorem alignment_keeps_frames_late_state :
    ∃ history buffer, Run (alignment fieldless)
        (withCompletionCriteria (.withFps 30) cameraAndState) history buffer ∧
      (returned history).map (·.timestamp) = [0] ∧
      buffer.activeFrames.map (·.timestamp) = [33333333] ∧
      Sorted buffer.activeFrames ∧
      Counted buffer.flush.1.stats (returned history ++ buffer.flush.2).length := by
  obtain ⟨history, buffer, run, seen⟩ := Run.of_observation (alignment fieldless)
    (withCompletionCriteria (.withFps 30) cameraAndState)
    [(⟨0, ()⟩, "camera"), (⟨40000000, ()⟩, "camera"), (⟨10, ()⟩, "state")]
    (fun reached => ((returned reached.1).map (·.timestamp), reached.2.activeFrames.map (·.timestamp)))
    ([0], [33333333]) (by decide +kernel)
  obtain ⟨sorted, -, -, -, -, -, -, counted⟩ :=
    alignment_keeps_frames fieldless (.withFps 30) cameraAndState (by decide) history buffer run
  simp only [Prod.mk.injEq] at seen
  exact ⟨history, buffer, run, seen.1, seen.2, sorted, counted⟩

end Roboflow.Alignment
