import Roboflow.Alignment.EmissionOrder
import Roboflow.Alignment.NearestFrame
import Roboflow.Library.KeyedBuffers

/-! The counts of the completion criteria. A frame keeps the features it has received as a set,
so it never shows more than one message of a feature, however many were aligned to it. -/
namespace Roboflow.Alignment
open Library FrameAlignmentBuffer

variable {Message Value : Type} {config : StreamingConfig} {criteria : FrameCompletionCriteria}
  {extraction : Extraction Message Value} {buffer : FrameAlignmentBuffer Value}
  {call : TimestampedMessage Message × String}
  {history : History (FrameAlignmentBuffer Value) (TimestampedMessage Message × String)
    (List (AlignedFrame Value))}

/-! ### Building criteria -/

namespace FrameCompletionCriteria

def new : FrameCompletionCriteria := ⟨.empty⟩

def requireFeature (criteria : FrameCompletionCriteria) (feature : String) (count : Nat) :
    FrameCompletionCriteria :=
  ⟨criteria.features.put feature count⟩

/-- Calls of `require_feature` on fresh criteria, in this order. -/
def requiring (requirements : List (String × Nat)) : FrameCompletionCriteria :=
  requirements.foldl (fun criteria required => criteria.requireFeature required.1 required.2) new

/-- The last call of a feature counts. -/
theorem get_requiring (requirements : List (String × Nat)) (feature : String) :
    (requiring requirements).features.get feature =
      (requirements.reverse.find? fun required => required.1 = feature).map Prod.snd := by
  have written : (requiring requirements).features = Kv.empty.putAll requirements :=
    (List.foldl_hom features fun _ _ => rfl).symm
  rw [written, Kv.get_putAll, Kv.get_empty, Option.or_none]

end FrameCompletionCriteria

/-! ### The messages of a frame -/

/-- The steps since the frame of this timestamp was put into the buffer, newest first. -/
def since (timestamp : Nat)
    (history : History (FrameAlignmentBuffer Value) (TimestampedMessage Message × String)
      (List (AlignedFrame Value))) :=
  history.takeWhile fun e => e.post.activeFrames.any fun p => p.timestamp = timestamp

/-- The messages of a feature among those aligned to a timestamp. -/
def alignedCount (config : StreamingConfig) (timestamp : Nat)
    (calls : List (TimestampedMessage Message × String)) (feature : String) : Nat :=
  calls.countP fun call => config.alignToFrameBoundary call.1.logTime = timestamp ∧ call.2 = feature

/-- Each required feature has come often enough. -/
def CountsReached (config : StreamingConfig) (criteria : FrameCompletionCriteria) (timestamp : Nat)
    (calls : List (TimestampedMessage Message × String)) : Prop :=
  ∀ feature count, criteria.features.get feature = some count →
    count ≤ alignedCount config timestamp calls feature

/-- Wherever a run has got to, and whichever message comes next, the check that follows it
judges each buffered frame by the counts of the messages aligned to that frame. -/
def JudgedByCounts (extraction : Extraction Message Value) (config : StreamingConfig)
    (criteria : FrameCompletionCriteria) : Prop :=
  ∀ history buffer, Run (alignment extraction) (withCompletionCriteria config criteria) history buffer →
    ∀ call, ∀ p ∈ (buffer.placed extraction call).activeFrames,
      criteria.isComplete p.receivedFeatures = true ↔
        CountsReached config criteria p.timestamp (call :: (since p.timestamp history).map (·.act))

theorem alignedCount_pos_iff {calls : List (TimestampedMessage Message × String)} :
    0 < alignedCount config timestamp calls feature ↔ feature ∈ featuresAt config calls timestamp := by
  simp only [alignedCount, List.countP_pos_iff, mem_featuresAt, decide_eq_true_eq]

/-- What has been received counts once. -/
theorem isComplete_iff_once (criteria : FrameCompletionCriteria) (received : Finset String) :
    criteria.isComplete received = true ↔
      received ≠ ∅ ∧ ∀ feature count, criteria.features.get feature = some count →
        count ≤ if feature ∈ received then 1 else 0 := by
  have once : ∀ feature, (received.filter (· = feature)).card = if feature ∈ received then 1 else 0 := by
    intro feature
    rw [Finset.filter_eq']
    split <;> rfl
  simp only [isComplete_iff, once, Prod.forall, Kv.mem_entries]

/-! ### Received features -/

/-- Each buffered frame has received the features of its own messages, and at least one. -/
structure Tracked (config : StreamingConfig)
    (history : History (FrameAlignmentBuffer Value) (TimestampedMessage Message × String)
      (List (AlignedFrame Value)))
    (buffer : FrameAlignmentBuffer Value) : Prop where
  features : ∀ p ∈ buffer.activeFrames, p.receivedFeatures =
    featuresAt config ((since p.timestamp history).map (·.act)) p.timestamp
  some : ∀ p ∈ buffer.activeFrames, p.receivedFeatures ≠ ∅

theorem since_absent
    (run : Run (alignment extraction) (withCompletionCriteria config criteria) history buffer)
    (absent : ∀ p ∈ buffer.activeFrames, p.timestamp ≠ timestamp) : since timestamp history = [] := by
  cases run with
  | start => rfl
  | next before moved =>
    refine List.takeWhile_cons_of_neg ?_
    simpa using absent

theorem since_present {e : Transition (FrameAlignmentBuffer Value) (TimestampedMessage Message × String)
      (List (AlignedFrame Value))}
    (present : p ∈ e.post.activeFrames) :
    since p.timestamp (e :: history) = e :: since p.timestamp history :=
  List.takeWhile_cons_of_pos (List.any_eq_true.mpr ⟨p, present, by simp⟩)

/-- With the message placed, its frame has received its feature and the others nothing new. -/
theorem Tracked.placed (tracked : Tracked config history buffer)
    (run : Run (alignment extraction) (withCompletionCriteria config criteria) history buffer) :
    ∀ p ∈ (buffer.placed extraction call).activeFrames,
      p.receivedFeatures =
        featuresAt config (call :: (since p.timestamp history).map (·.act)) p.timestamp ∧
      p.receivedFeatures ≠ ∅ := by
  obtain ⟨rfl, rfl, sound, -⟩ := alignment_reached extraction run
  obtain ⟨before, entry, after, located, frames, below, above⟩ :=
    placed_frames extraction buffer call sound.sorted
  have around : ∀ p, (p ∈ before ∨ p ∈ after) →
      buffer.config.alignToFrameBoundary call.1.logTime ≠ p.timestamp := by
    rintro p (early | late)
    · exact (below p early).ne'
    · exact (above p late).ne
  have kept : ∀ p, (p ∈ before ∨ p ∈ after) → p.receivedFeatures =
        featuresAt buffer.config (call :: (since p.timestamp history).map (·.act)) p.timestamp ∧
      p.receivedFeatures ≠ ∅ := by
    intro p side
    have buffered := located.mem_of_around side
    rw [featuresAt_cons, if_neg (around p side)]
    exact ⟨tracked.features p buffered, tracked.some p buffered⟩
  have named := located.timestamp_eq
  have own : entry.receivedFeatures =
      featuresAt buffer.config ((since entry.timestamp history).map (·.act)) entry.timestamp := by
    cases located with
    | found buffered _ =>
      exact tracked.features entry (buffered ▸ List.mem_append_right _ List.mem_cons_self)
    | created buffered =>
      have absent : ∀ p ∈ buffer.activeFrames,
          p.timestamp ≠ buffer.config.alignToFrameBoundary call.1.logTime := by
        intro p member
        rw [buffered, List.mem_append] at member
        exact (around p member).symm
      have nothing := since_absent run absent
      simp only [PartialFrame.new, nothing]
      rfl
  intro p member
  rw [frames, List.mem_append, List.mem_cons] at member
  rcases member with early | rfl | late
  · exact kept p (Or.inl early)
  · rw [PartialFrame.add_receivedFeatures, PartialFrame.add_timestamp, featuresAt_cons,
      if_pos named.symm, ← own]
    exact ⟨rfl, Finset.insert_ne_empty _ _⟩
  · exact kept p (Or.inr late)

theorem alignment_tracked (extraction : Extraction Message Value)
    (run : Run (alignment extraction) (withCompletionCriteria config criteria) history buffer) :
    Tracked config history buffer := by
  induction run with
  | start => exact ⟨by simp [withCompletionCriteria], by simp [withCompletionCriteria]⟩
  | @next history s call s' out before moved ih =>
    have received : ∀ p ∈ (s.placed extraction call).activeFrames, _ := ih.placed before
    simp only [alignment, processMessage_eq, Option.some.injEq, Prod.ext_iff] at moved
    obtain ⟨rfl, rfl⟩ := moved
    have kept : ∀ p ∈ (s.placed extraction call).checkCompletions.1.activeFrames,
        p ∈ (s.placed extraction call).activeFrames := by
      intro p member
      rw [checkCompletions_frames] at member
      exact (List.mem_filter.mp member).1
    refine ⟨fun p member => ?_, fun p member => (received p (kept p member)).2⟩
    rw [since_present member]
    exact (received p (kept p member)).1

/-- Counts up to one are what a set can show. -/
theorem judged_of_once (extraction : Extraction Message Value)
    (once : ∀ feature count, criteria.features.get feature = some count → count ≤ 1) :
    JudgedByCounts extraction config criteria := by
  intro history buffer run call p member
  obtain ⟨received, some_⟩ := (alignment_tracked extraction run).placed run p member
  have shown : ∀ feature count, criteria.features.get feature = some count →
      ((count ≤ if feature ∈ p.receivedFeatures then 1 else 0) ↔
        count ≤ alignedCount config p.timestamp (call :: (since p.timestamp history).map (·.act)) feature) := by
    intro feature count required
    have atMost := once feature count required
    rw [received]
    split
    · rename_i present
      have came := alignedCount_pos_iff.mpr present
      omega
    · rename_i missing
      have never : ¬ 0 < alignedCount config p.timestamp
          (call :: (since p.timestamp history).map (·.act)) feature :=
        fun came => missing (alignedCount_pos_iff.mp came)
      omega
  rw [isComplete_iff_once]
  constructor
  · rintro ⟨-, enough⟩ feature count required
    exact (shown feature count required).mp (enough feature count required)
  · intro reached
    exact ⟨some_, fun feature count required =>
      (shown feature count required).mpr (reached feature count required)⟩

/-! ### A frame that waits for a second message -/

/-- A timestamp just late enough for the first frame after zero. -/
def justBefore (config : StreamingConfig) : Nat :=
  config.frameIntervalNs - (config.frameIntervalNs + 1) / 2

theorem alignToFrameBoundary_justBefore (some_ : 0 < config.frameIntervalNs) :
    config.alignToFrameBoundary (justBefore config) = config.frameIntervalNs := by
  have small := frameIntervalNs_le config
  unfold justBefore
  rw [alignToFrameBoundary_eq (by omega) some_, Nat.sub_add_cancel (by omega), Nat.div_self some_,
    Nat.one_mul]

/-- With a count above one no frame is complete, and the first frame's window is still open. -/
theorem not_isDone (sound : Sound buffer) (twice : criteria.features.get feature = some count)
    (more : 1 < count) (member : p ∈ (buffer.placed extraction call).activeFrames)
    (own : buffer.completionCriteria = criteria)
    (first : p.timestamp = buffer.config.frameIntervalNs)
    (early : call.1.logTime < buffer.config.frameIntervalNs) :
    (buffer.placed extraction call).isDone p = false := by
  obtain ⟨config_eq, criteria_eq, now, -⟩ := placed_config extraction buffer call
  have window := (sound.placed extraction call).window p member
  have small := frameIntervalNs_le buffer.config
  have waiting : call.1.logTime < p.eligibleTimestamp := by
    rw [window, first, saturatingAdd]
    omega
  have incomplete : criteria.isComplete p.receivedFeatures = false := by
    rw [← Bool.not_eq_true, isComplete_iff_once]
    rintro ⟨-, enough⟩
    have atMost := enough feature count twice
    split at atMost <;> omega
  rw [isDone, criteria_eq, own, incomplete, now, Bool.false_or, decide_eq_false_iff_not]
  omega

/-- Any messages just before the first frame stay with it. -/
theorem gathered (extraction : Extraction Message Value) (some_ : 0 < config.frameIntervalNs)
    (twice : criteria.features.get feature = some count) (more : 1 < count)
    (calls : List (TimestampedMessage Message × String))
    (early : ∀ call ∈ calls, call.1.logTime = justBefore config) :
    ∃ history buffer,
      Run (alignment extraction) (withCompletionCriteria config criteria) history buffer ∧
      (since config.frameIntervalNs history).map (·.act) = calls := by
  suffices all : ∃ history buffer,
      Run (alignment extraction) (withCompletionCriteria config criteria) history buffer ∧
      since config.frameIntervalNs history = history ∧ history.map (·.act) = calls by
    obtain ⟨history, buffer, run, whole, named⟩ := all
    exact ⟨history, buffer, run, by rw [whole, named]⟩
  induction calls with
  | nil => exact ⟨[], _, .start, rfl, rfl⟩
  | cons call earlier ih =>
    obtain ⟨history, buffer, run, whole, named⟩ :=
      ih fun other member => early other (List.mem_cons_of_mem _ member)
    have now := early call List.mem_cons_self
    obtain ⟨rfl, own, sound, -⟩ := alignment_reached extraction run
    obtain ⟨before, entry, after, located, frames, -, -⟩ :=
      placed_frames extraction buffer call sound.sorted
    have at_ := located.timestamp_eq
    rw [now, alignToFrameBoundary_justBefore some_] at at_
    have member : entry.add extraction call.1 call.2 ∈ (buffer.placed extraction call).activeFrames := by
      rw [frames]
      exact List.mem_append_right _ List.mem_cons_self
    have open_ := not_isDone sound twice more member own at_ (by rw [now, justBefore]; omega)
    have stays : entry.add extraction call.1 call.2 ∈
        (buffer.placed extraction call).checkCompletions.1.activeFrames := by
      rw [checkCompletions_frames]
      exact List.mem_filter.mpr ⟨member, by rw [open_]; rfl⟩
    refine ⟨_, _, run.move call _ _ rfl, ?_, by rw [List.map_cons, named]⟩
    rw [← at_] at whole ⊢
    rw [← PartialFrame.add_timestamp extraction call.1 call.2 entry, since_present stays,
      PartialFrame.add_timestamp, whole]

/-- As many messages of each feature as the criteria require. -/
def demanded [Inhabited Message] (config : StreamingConfig) (criteria : FrameCompletionCriteria) :
    List (TimestampedMessage Message × String) :=
  criteria.features.entries.flatMap fun required =>
    List.replicate required.2 (⟨justBefore config, default⟩, required.1)

theorem countsReached_demanded [Inhabited Message] (some_ : 0 < config.frameIntervalNs) :
    CountsReached config criteria config.frameIntervalNs
      (demanded config criteria : List (TimestampedMessage Message × String)) := by
  intro feature count required
  have part : List.replicate count ((⟨justBefore config, default⟩ : TimestampedMessage Message), feature) ∈
      criteria.features.entries.map fun required =>
        List.replicate required.2 (⟨justBefore config, default⟩, required.1) :=
    List.mem_map.mpr ⟨(feature, count), (Kv.mem_entries _).mpr required, rfl⟩
  have atLeast := (List.sublist_flatten_of_mem part).countP_le
    (p := fun call => config.alignToFrameBoundary call.1.logTime = config.frameIntervalNs ∧ call.2 = feature)
  rw [List.countP_replicate, if_pos (by simp [alignToFrameBoundary_justBefore some_])] at atLeast
  rw [alignedCount, demanded, List.flatMap_def]
  exact atLeast

/-- A count above one is reached by the messages and missed by the criteria. -/
theorem once_of_judged [Inhabited Message] (extraction : Extraction Message Value)
    (some_ : 0 < config.frameIntervalNs) (judged : JudgedByCounts extraction config criteria)
    (required : criteria.features.get feature = some count) : count ≤ 1 := by
  by_contra many
  have early : ∀ call ∈ (demanded config criteria : List (TimestampedMessage Message × String)),
      call.1.logTime = justBefore config := by
    intro call member
    obtain ⟨entry, -, copies⟩ := List.mem_flatMap.mp member
    rw [(List.mem_replicate.mp copies).2]
  have reached : CountsReached config criteria config.frameIntervalNs
      (demanded config criteria : List (TimestampedMessage Message × String)) :=
    countsReached_demanded some_
  cases sequence : (demanded config criteria : List (TimestampedMessage Message × String)) with
  | nil =>
    have enough := reached feature count required
    rw [sequence] at enough
    exact many (enough.trans (Nat.zero_le 1))
  | cons call earlier =>
    rw [sequence] at early reached
    obtain ⟨history, buffer, run, named⟩ := gathered extraction some_ required (by omega) earlier
      fun other member => early other (List.mem_cons_of_mem _ member)
    obtain ⟨config_eq, -, sound, -⟩ := alignment_reached extraction run
    obtain ⟨before, entry, after, located, frames, -, -⟩ :=
      placed_frames extraction buffer call sound.sorted
    have at_ := located.timestamp_eq
    rw [config_eq, early call List.mem_cons_self, alignToFrameBoundary_justBefore some_] at at_
    have member : entry.add extraction call.1 call.2 ∈ (buffer.placed extraction call).activeFrames := by
      rw [frames]
      exact List.mem_append_right _ List.mem_cons_self
    have complete := (judged history buffer run call _ member).mpr
      (by rwa [PartialFrame.add_timestamp, at_, named])
    have atMost := ((isComplete_iff_once _ _).mp complete).2 feature count required
    split at atMost <;> omega

/-- The criteria judge every frame of every run by its counts exactly if no feature is left
with a count above one. -/
theorem judged_by_counts_iff [Inhabited Message] (extraction : Extraction Message Value)
    (config : StreamingConfig) (rate : 1 ≤ config.fps ∧ config.fps ≤ 1000000000)
    (requirements : List (String × Nat)) :
    JudgedByCounts extraction config (.requiring requirements) ↔
      ∀ feature count,
        (requirements.reverse.find? fun required => required.1 = feature).map Prod.snd = some count →
          count ≤ 1 := by
  have some_ := frameIntervalNs_pos rate.1 rate.2
  simp only [← FrameCompletionCriteria.get_requiring]
  constructor
  · intro judged feature count required
    exact once_of_judged extraction some_ judged required
  · exact judged_of_once extraction

/-- A count of two that a later call lowers to one. -/
theorem judged_by_counts_lowered :
    JudgedByCounts fieldless (.withFps 30) (.requiring [("camera", 2), ("camera", 1)]) := by
  refine (judged_by_counts_iff fieldless (.withFps 30) (by decide) _).mpr fun feature count last => ?_
  simp only [List.reverse_cons, List.reverse_nil, List.nil_append, List.singleton_append,
    List.find?_cons, List.find?_nil] at last
  split at last <;> simp_all

/-- Two camera messages at time zero, and a frame that waits for two of them. -/
theorem second_message_missed :
    ¬ JudgedByCounts fieldless (.withFps 30) (.requiring [("camera", 2)]) := by
  intro judged
  have run : Run (alignment fieldless)
      (withCompletionCriteria (.withFps 30) (.requiring [("camera", 2)])) _ _ :=
    Run.start.move (⟨0, ()⟩, "camera") _ _ rfl
  have complete := (judged _ _ run (⟨0, ()⟩, "camera") _ List.mem_cons_self).mpr (by
    intro feature count required
    rw [FrameCompletionCriteria.get_requiring] at required
    simp only [List.reverse_singleton, List.find?_cons, List.find?_nil] at required
    split at required
    · rename_i named
      cases decide_eq_true_eq.mp named
      cases required
      decide +kernel
    · cases required)
  revert complete
  decide +kernel

end Roboflow.Alignment
