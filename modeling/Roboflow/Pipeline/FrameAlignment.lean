import Roboflow.Pipeline.Executor

/-! How messages become frames. With a writer that succeeds the buffer is empty
between messages: the bucket of a message is removed in the call that filled it. So a
frame is made of one message, and the frames are the aligned ones exactly when no
bucket was to hold two. -/
namespace Roboflow.Pipeline
open Library
open Roboflow.Alignment (AlignedFrame ImageData)

variable {Value : Type}

/-- What a message adds to a frame, where its conversion does not fail. -/
def converted (config : DatasetPipelineConfig) (msg : TimestampedMessage Value) :
    Option (String × Contribution Value) :=
  match contribution config msg with
  | .ok found => found
  | .error _ => none

/-- The frames a log shows, oldest first. -/
def framesOf : WriterLog Value → List (AlignedFrame Value)
  | [] => []
  | (.writeFrame frame, true) :: older => framesOf older ++ [frame]
  | _ :: older => framesOf older

def succeeding : Writer Value := fun _ _ => true

/-- The executor after the messages, each call's result ignored. -/
def Executor.after (writer : Writer Value) (config : DatasetPipelineConfig)
    (messages : List (TimestampedMessage Value)) : Executor Value :=
  messages.foldl (fun s msg => reached (s.processMessage writer config msg)) .new

/-! ### What alignment asks -/

/-- The data of one feature that a bucket received, in order. -/
def bucketData (config : DatasetPipelineConfig) (messages : List (TimestampedMessage Value))
    (timestamp : Nat) (feature : String) : List (Contribution Value) :=
  messages.filterMap fun msg =>
    match converted config msg with
    | some (name, data) =>
      if Executor.alignedTimestamp config msg.logTime = timestamp ∧ name = feature then some data
      else none
    | none => none

/-- A frame holds this for a feature, or nothing. -/
def FrameHolds (frame : AlignedFrame Value) (feature : String) :
    Option (Contribution Value) → Prop
  | some (.image data) => frame.images.get feature = some data
  | some (.state values) => frame.states.get feature = some values
  | some (.action values) => frame.actions.get feature = some values
  | none => frame.images.get feature = none ∧ frame.states.get feature = none ∧
      frame.actions.get feature = none

/-- Strictly increasing timestamps, one frame for each bucket that received a
convertible message, and in it the last data of each feature. -/
structure Aligned (config : DatasetPipelineConfig) (messages : List (TimestampedMessage Value))
    (frames : List (AlignedFrame Value)) : Prop where
  increasing : (frames.map (·.timestamp)).Pairwise (· < ·)
  oneEach : ∀ t, t ∈ frames.map (·.timestamp) ↔
    ∃ msg ∈ messages, (converted config msg).isSome ∧ Executor.alignedTimestamp config msg.logTime = t
  latest : ∀ frame ∈ frames, ∀ feature,
    FrameHolds frame feature (bucketData config messages frame.timestamp feature).getLast?

/-- No bucket receives two convertible messages. -/
def BucketsUnshared (config : DatasetPipelineConfig)
    (messages : List (TimestampedMessage Value)) : Prop :=
  ((messages.filter fun msg => (converted config msg).isSome).map
    fun msg => Executor.alignedTimestamp config msg.logTime).Pairwise (· ≠ ·)

/-! ### One message, one frame -/

/-- The frame of a message alone. -/
def messageFrame (config : DatasetPipelineConfig) (frameIndex : Nat)
    (msg : TimestampedMessage Value) : Option (AlignedFrame Value) :=
  (converted config msg).map fun (feature, data) =>
    addContribution (.new frameIndex (Executor.alignedTimestamp config msg.logTime)) feature data

theorem put_isEmpty (store : Kv String ν) (key : String) (value : ν) :
    (store.put key value).entries.isEmpty = false := by
  have stored := (Kv.mem_entries _).mpr (Kv.get_put_self store key value)
  cases entries : (store.put key value).entries with
  | nil => simp [entries] at stored
  | cons entry rest => rfl

theorem addContribution_not_empty (frame : AlignedFrame Value) (feature : String)
    (data : Contribution Value) : frameIsEmpty (addContribution frame feature data) = false := by
  cases data <;> simp [frameIsEmpty, addContribution, put_isEmpty]

/-- A bucket of one message makes the message's own frame, or none. -/
theorem messagesToFrame_single (config : DatasetPipelineConfig) (frameIndex : Nat)
    (msg : TimestampedMessage Value) :
    messagesToFrame config frameIndex [msg] (Executor.alignedTimestamp config msg.logTime) =
      .ok (messageFrame config frameIndex msg) ∨
    ∃ e, messagesToFrame config frameIndex [msg] (Executor.alignedTimestamp config msg.logTime) =
      .error e ∧ messageFrame config frameIndex msg = none := by
  have blank : frameIsEmpty (AlignedFrame.new frameIndex
      (Executor.alignedTimestamp config msg.logTime) : AlignedFrame Value) = true := rfl
  unfold messagesToFrame messageFrame converted
  simp only [List.foldlM_cons, List.foldlM_nil, processMessageForFrame]
  cases found : contribution config msg with
  | error e => exact .inr ⟨e, rfl, rfl⟩
  | ok given =>
    cases given with
    | none => exact .inl (by simp [bind, Except.bind, pure, Except.pure, blank])
    | some named =>
      exact .inl (by simp [bind, Except.bind, pure, Except.pure, addContribution_not_empty])

namespace Executor

/-- Between messages nothing waits. -/
structure Settled (s : Executor Value) : Prop where
  buffer : s.messageBuffer = .empty
  current : s.currentTimestampNs = none

/-- A frame, or none, was written and counted. -/
structure Took (frame : Option (AlignedFrame Value)) (s s' : Executor Value) : Prop where
  log : s'.log = frame.toList.map (fun frame => (.writeFrame frame, true)) ++ s.log
  frameIndex : s'.frameIndex = s.frameIndex + frame.toList.length
  framesWritten : s'.framesWritten = s.framesWritten + frame.toList.length
  framesInEpisode : s'.framesInEpisode =
    s.framesInEpisode + frame.toList.countP fun frame => !frame.images.entries.isEmpty
  episodeIndex : s'.episodeIndex = s.episodeIndex
  episodeStarted : s'.episodeStarted = s.episodeStarted
  lastTimestampNs : s'.lastTimestampNs = s.lastTimestampNs

theorem Took.frames {frame : Option (AlignedFrame Value)} {s s' : Executor Value}
    (took : Took frame s s') : framesOf s'.log = framesOf s.log ++ frame.toList := by
  rw [took.log]
  cases frame with
  | none => simp
  | some frame => rfl

theorem took_none (s : Executor Value) : Took none s s :=
  ⟨rfl, rfl, rfl, rfl, rfl, rfl, rfl⟩

theorem call_succeeding (s : Executor Value) (c : WriterCall Value) :
    s.call succeeding c = .ok { s with log := (c, true) :: s.log } := rfl

theorem writeFrame_took (s : Executor Value) (frame : AlignedFrame Value) :
    ∃ s', s.writeFrame succeeding frame = .ok s' ∧ s'.messageBuffer = s.messageBuffer ∧
      Took (some frame) s s' := by
  refine ⟨_, rfl, rfl, ⟨rfl, rfl, rfl, ?_, rfl, rfl, rfl⟩⟩
  cases blank : frame.images.entries.isEmpty <;> simp [blank]

/-- The bucket of one message at a writer that succeeds. -/
theorem writeBucket_single (config : DatasetPipelineConfig) (s : Executor Value)
    (msg : TimestampedMessage Value) :
    ∃ s', s.writeBucket succeeding config (alignedTimestamp config msg.logTime) [msg] = .ok s' ∧
      s'.messageBuffer = s.messageBuffer ∧ Took (messageFrame config s.frameIndex msg) s s' := by
  unfold writeBucket
  rcases messagesToFrame_single config s.frameIndex msg with made | ⟨e, failed, nothing⟩
  · rw [made]
    cases messageFrame config s.frameIndex msg with
    | none => exact ⟨s, rfl, rfl, took_none s⟩
    | some frame => exact s.writeFrame_took frame
  · rw [failed, nothing]
    exact ⟨s, rfl, rfl, took_none s⟩

/-- A loop that finds one bucket, at the current timestamp, of one message. -/
theorem completeFrames_single (config : DatasetPipelineConfig) (s : Executor Value)
    (msg : TimestampedMessage Value)
    (held : s.messageBuffer = Kv.put .empty (alignedTimestamp config msg.logTime) [msg])
    (current : s.currentTimestampNs = some (alignedTimestamp config msg.logTime)) :
    ∃ s', s.processCompleteFrames succeeding config = .ok s' ∧ s'.Settled ∧
      Took (messageFrame config s.frameIndex msg) s s' := by
  have fuel : s.messageBuffer.entries.length + 1 = 2 := by
    rw [held]
    rfl
  have bucket : s.messageBuffer.get (alignedTimestamp config msg.logTime) = some [msg] := by
    rw [held, Kv.get_put_self]
  have emptied : s.messageBuffer.delete (alignedTimestamp config msg.logTime) = .empty := by
    rw [held]
    apply Kv.ext_entries
    simp [Kv.delete, Kv.put, Kv.insertEntry, Kv.empty]
  obtain ⟨s', wrote, buffer, took⟩ := writeBucket_single config
    { s with messageBuffer := s.messageBuffer.delete (alignedTimestamp config msg.logTime) } msg
  have settled : s'.messageBuffer = .empty := buffer.trans emptied
  have nothing : ∀ keep, s'.nextTimestamp keep = none := by
    intro keep
    rw [nextTimestamp, settled]
    rfl
  refine ⟨{ s' with currentTimestampNs := none }, ?_, ⟨settled, rfl⟩, ?_⟩
  · have next : s'.nextCurrent config (alignedTimestamp config msg.logTime) = none := by
      simp [nextCurrent, nothing]
    unfold processCompleteFrames
    rw [fuel, completeFrames_pass current bucket, wrote, Except.bind, next]
    rfl
  · exact ⟨took.log, took.frameIndex, took.framesWritten, took.framesInEpisode, took.episodeIndex,
      took.episodeStarted, took.lastTimestampNs⟩

/-- A message into an empty buffer comes out of it in the same call. -/
theorem processCompleteFrames_single (config : DatasetPipelineConfig) {s : Executor Value}
    (settled : s.Settled) (msg : TimestampedMessage Value) :
    ∃ s', (s.buffered config msg).processCompleteFrames succeeding config = .ok s' ∧ s'.Settled ∧
      Took (messageFrame config s.frameIndex msg) s s' := by
  obtain ⟨s', ran, settled', took⟩ := completeFrames_single config (s.buffered config msg) msg
    (by simp [buffered, settled.buffer]) (by simp [buffered, settled.current])
  exact ⟨s', ran, settled', took.log, took.frameIndex, took.framesWritten, took.framesInEpisode,
    took.episodeIndex, took.episodeStarted, took.lastTimestampNs⟩

/-- What `process_message` does after the boundary. -/
def accept (writer : Writer Value) (config : DatasetPipelineConfig) (s : Executor Value)
    (msg : TimestampedMessage Value) : Except (Executor Value) (Executor Value) :=
  if msg.data.isCameraInfo && s.processedCameraInfo.contains msg.topic then .ok s
  else (({ s with processedCameraInfo :=
      if msg.data.isCameraInfo then msg.topic :: s.processedCameraInfo
      else s.processedCameraInfo }).buffered config msg).processCompleteFrames writer config

theorem processMessage_eq (writer : Writer Value) (config : DatasetPipelineConfig)
    (s : Executor Value) (msg : TimestampedMessage Value) :
    s.processMessage writer config msg =
      if s.atFrameLimit config then .ok { s with messagesProcessed := s.messagesProcessed + 1 }
      else (({ s with messagesProcessed := s.messagesProcessed + 1 }).processBoundary writer config
        msg.logTime).bind fun s =>
          ({ s with lastTimestampNs := some msg.logTime }).accept writer config msg := by
  have same : ({ s with messagesProcessed := s.messagesProcessed + 1 }).atFrameLimit config =
      s.atFrameLimit config := rfl
  simp only [processMessage, same, accept]
  split
  · rfl
  · congr 1
    funext s
    cases msg.data.isCameraInfo <;> rfl

theorem cameraInfo_no_frame (config : DatasetPipelineConfig) {msg : TimestampedMessage Value}
    (info : msg.data.isCameraInfo = true) (frameIndex : Nat) :
    messageFrame config frameIndex msg = none := by
  cases data : msg.data with
  | array numbers => simp [data, Payload.isCameraInfo] at info
  | other => simp [data, Payload.isCameraInfo] at info
  | struct fields =>
    simp only [data, Payload.isCameraInfo] at info
    unfold messageFrame converted contribution
    cases config.featureName msg.topic with
    | none => rfl
    | some feature => simp [data, structContribution, info, Except.map]

theorem accept_took (config : DatasetPipelineConfig) {s : Executor Value} (settled : s.Settled)
    (msg : TimestampedMessage Value) :
    ∃ s', s.accept succeeding config msg = .ok s' ∧ s'.Settled ∧
      Took (messageFrame config s.frameIndex msg) s s' := by
  unfold accept
  split
  · rename_i repeated
    rw [Bool.and_eq_true] at repeated
    rw [cameraInfo_no_frame config repeated.1]
    exact ⟨s, rfl, settled, took_none s⟩
  · have settled' : Settled { s with processedCameraInfo :=
        if msg.data.isCameraInfo then msg.topic :: s.processedCameraInfo
        else s.processedCameraInfo } := ⟨settled.buffer, settled.current⟩
    obtain ⟨s', ran, after, took⟩ := processCompleteFrames_single config settled' msg
    exact ⟨s', ran, after, took.log, took.frameIndex, took.framesWritten, took.framesInEpisode,
      took.episodeIndex, took.episodeStarted, took.lastTimestampNs⟩

theorem processBoundary_single {config : DatasetPipelineConfig}
    (single : config.episodeStrategy = .single) (s : Executor Value) (logTime : Nat) :
    ∃ s', s.processBoundary succeeding config logTime = .ok s' ∧
      s'.messageBuffer = s.messageBuffer ∧ s'.currentTimestampNs = s.currentTimestampNs ∧
      framesOf s'.log = framesOf s.log ∧ s'.frameIndex = s.frameIndex := by
  have never : ∀ s : Executor Value, s.atBoundary config logTime = false := by
    intro s
    simp [atBoundary, single]
  unfold processBoundary
  cases started : s.episodeStarted with
  | true => exact ⟨s, by simp [never, bind, Except.bind], rfl, rfl, rfl, rfl⟩
  | false =>
    simp only [Bool.not_false, ↓reduceIte, startEpisode, started, Bool.false_and, Bool.false_eq_true,
      call_succeeding, bind, Except.bind, never]
    exact ⟨_, rfl, rfl, rfl, rfl, rfl⟩

theorem processMessage_single {config : DatasetPipelineConfig}
    (single : config.episodeStrategy = .single) (unlimited : config.maxFrames = none)
    {s : Executor Value} (settled : s.Settled) (msg : TimestampedMessage Value) :
    ∃ s', s.processMessage succeeding config msg = .ok s' ∧ s'.Settled ∧
      framesOf s'.log = framesOf s.log ++ (messageFrame config s.frameIndex msg).toList ∧
      s'.frameIndex = s.frameIndex + (messageFrame config s.frameIndex msg).toList.length := by
  obtain ⟨s₁, boundary, buffer, current, frames, index⟩ := processBoundary_single single
    { s with messagesProcessed := s.messagesProcessed + 1 } msg.logTime
  have notLimited : s.atFrameLimit config = false := by simp [atFrameLimit, unlimited]
  have settled₁ : Settled { s₁ with lastTimestampNs := some msg.logTime } :=
    ⟨buffer.trans settled.buffer, current.trans settled.current⟩
  obtain ⟨s', ran, settled', took⟩ := accept_took config settled₁ msg
  have frames' := took.frames
  have index' := took.frameIndex
  simp only [index, frames] at frames' index'
  refine ⟨s', ?_, settled', frames', index'⟩
  rw [processMessage_eq, notLimited, boundary]
  exact ran

end Executor

/-- The frames of messages in order, numbered from `frameIndex`. -/
def messageFrames (config : DatasetPipelineConfig) :
    Nat → List (TimestampedMessage Value) → List (AlignedFrame Value)
  | _, [] => []
  | frameIndex, msg :: rest =>
    (messageFrame config frameIndex msg).toList ++
      messageFrames config (frameIndex + (messageFrame config frameIndex msg).toList.length) rest

/-- Every message of a run makes its own frame. -/
theorem run_frames {config : DatasetPipelineConfig} (single : config.episodeStrategy = .single)
    (unlimited : config.maxFrames = none) (messages : List (TimestampedMessage Value))
    {s : Executor Value} (settled : s.Settled) :
    let s' := messages.foldl (fun s msg => reached (s.processMessage succeeding config msg)) s
    s'.Settled ∧ framesOf s'.log = framesOf s.log ++ messageFrames config s.frameIndex messages := by
  induction messages generalizing s with
  | nil => exact ⟨settled, by simp [messageFrames]⟩
  | cons msg rest ih =>
    obtain ⟨s₁, ran, settled₁, frames, index⟩ :=
      Executor.processMessage_single single unlimited settled msg
    have next := ih settled₁
    simp only [List.foldl_cons, ran, reached_ok, messageFrames]
    refine ⟨next.1, ?_⟩
    rw [next.2, frames, index, List.append_assoc]

/-! ### Against what alignment asks -/

theorem addContribution_timestamp (frame : AlignedFrame Value) (feature : String)
    (data : Contribution Value) : (addContribution frame feature data).timestamp = frame.timestamp := by
  cases data <;> rfl

theorem messageFrames_timestamps (config : DatasetPipelineConfig) (frameIndex : Nat)
    (messages : List (TimestampedMessage Value)) :
    (messageFrames config frameIndex messages).map (·.timestamp) =
      (messages.filter fun msg => (converted config msg).isSome).map
        fun msg => Executor.alignedTimestamp config msg.logTime := by
  induction messages generalizing frameIndex with
  | nil => rfl
  | cons msg rest ih =>
    simp only [messageFrames, List.map_append, ih]
    unfold messageFrame
    cases found : converted config msg with
    | none => simp [found]
    | some named =>
      simp [found, addContribution_timestamp, AlignedFrame.new]

/-- A frame of the run is the frame of one of its messages. -/
theorem mem_messageFrames {config : DatasetPipelineConfig} {frameIndex : Nat}
    {messages : List (TimestampedMessage Value)} {frame : AlignedFrame Value}
    (member : frame ∈ messageFrames config frameIndex messages) :
    ∃ msg ∈ messages, ∃ feature data i, converted config msg = some (feature, data) ∧
      frame = addContribution (.new i (Executor.alignedTimestamp config msg.logTime)) feature data := by
  induction messages generalizing frameIndex with
  | nil => cases member
  | cons msg rest ih =>
    rcases List.mem_append.mp member with own | later
    · obtain ⟨⟨feature, data⟩, found, rfl⟩ := Option.map_eq_some_iff.mp (Option.mem_toList.mp own)
      exact ⟨msg, List.mem_cons_self, feature, data, frameIndex, found, rfl⟩
    · obtain ⟨other, within, rest⟩ := ih later
      exact ⟨other, List.mem_cons_of_mem _ within, rest⟩

/-- With no shared bucket a message's data is all its bucket received. -/
theorem bucketData_unshared {config : DatasetPipelineConfig}
    {messages : List (TimestampedMessage Value)} (unshared : BucketsUnshared config messages)
    {msg : TimestampedMessage Value} (member : msg ∈ messages)
    (found : converted config msg = some (feature, data)) (other : String) :
    bucketData config messages (Executor.alignedTimestamp config msg.logTime) other =
      if feature = other then [data] else [] := by
  induction messages with
  | nil => cases member
  | cons first rest ih =>
    unfold BucketsUnshared at unshared ih
    -- a later bucket equal to that of a convertible message would be shared
    have distinct : (converted config first).isSome → ∀ later ∈ rest, (converted config later).isSome →
        Executor.alignedTimestamp config first.logTime ≠
          Executor.alignedTimestamp config later.logTime := by
      intro isConverted later within laterConverted
      simp only [List.filter_cons, isConverted, if_true, List.map_cons, List.pairwise_cons] at unshared
      exact unshared.1 _ (List.mem_map_of_mem (List.mem_filter.mpr ⟨within, laterConverted⟩))
    have unsharedRest : ((rest.filter fun msg => (converted config msg).isSome).map
        fun msg => Executor.alignedTimestamp config msg.logTime).Pairwise (· ≠ ·) := by
      by_cases isConverted : (converted config first).isSome
      · simp only [List.filter_cons, isConverted, if_true, List.map_cons, List.pairwise_cons] at unshared
        exact unshared.2
      · simpa [List.filter_cons, isConverted] using unshared
    rcases List.mem_cons.mp member with rfl | later
    · have none_after : bucketData config rest (Executor.alignedTimestamp config msg.logTime) other =
          [] := by
        rw [bucketData, List.filterMap_eq_nil_iff]
        intro later within
        cases isLater : converted config later with
        | none => rfl
        | some named =>
          have apart := distinct (by simp [found]) later within (by simp [isLater])
          simp [apart.symm]
      unfold bucketData at none_after ⊢
      rw [List.filterMap_cons, none_after]
      simp only [found, true_and]
      split <;> simp_all
    · have own : bucketData config [first] (Executor.alignedTimestamp config msg.logTime) other =
          [] := by
        rw [bucketData, List.filterMap_eq_nil_iff]
        intro it isFirst
        rw [List.mem_singleton.mp isFirst]
        cases isFirstConverted : converted config first with
        | none => rfl
        | some named =>
          have apart := distinct (by simp [isFirstConverted]) msg later (by simp [found])
          simp [apart]
      rw [← ih unsharedRest later]
      unfold bucketData at own ⊢
      rw [← List.singleton_append, List.filterMap_append, own, List.nil_append]

theorem addContribution_holds (frameIndex timestamp : Nat) (feature other : String)
    (data : Contribution Value) :
    FrameHolds (addContribution (.new frameIndex timestamp) feature data) other
      (if feature = other then [data] else []).getLast? := by
  by_cases same : feature = other
  · subst same
    cases data <;> simp [FrameHolds, addContribution]
  · have different : other ≠ feature := Ne.symm same
    cases data <;>
      simp [same, FrameHolds, addContribution, AlignedFrame.new, Kv.get_put_ne _ different]

theorem aligned_of_unshared {config : DatasetPipelineConfig}
    {messages : List (TimestampedMessage Value)}
    (ordered : (messages.map (·.logTime)).Pairwise (· ≤ ·))
    (unshared : BucketsUnshared config messages) :
    Aligned config messages (messageFrames config 0 messages) where
  increasing := by
    rw [messageFrames_timestamps]
    have levels : ((messages.filter fun msg => (converted config msg).isSome).map
        fun msg => Executor.alignedTimestamp config msg.logTime).Pairwise (· ≤ ·) := by
      rw [List.pairwise_map] at ordered ⊢
      refine (ordered.filter _).imp fun before => ?_
      exact Nat.mul_le_mul_right _ (Nat.div_le_div_right before)
    exact (levels.and unshared).imp fun both => Nat.lt_of_le_of_ne both.1 both.2
  oneEach := by
    intro t
    rw [messageFrames_timestamps]
    simp only [List.mem_map, List.mem_filter, and_assoc]
  latest := by
    intro frame member other
    obtain ⟨msg, within, feature, data, i, found, rfl⟩ := mem_messageFrames member
    rw [addContribution_timestamp]
    show FrameHolds _ other
      (bucketData config messages (Executor.alignedTimestamp config msg.logTime) other).getLast?
    rw [bucketData_unshared unshared within found]
    exact addContribution_holds i _ feature other data

/-- A run of ordered messages through one episode, finalized in any drain order, gives
the aligned frames exactly when no two convertible messages share a bucket. -/
theorem aligned_iff_unshared {config : DatasetPipelineConfig}
    {messages : List (TimestampedMessage Value)}
    {remaining : List (Nat × List (TimestampedMessage Value))}
    (single : config.episodeStrategy = .single) (unlimited : config.maxFrames = none)
    (ordered : (messages.map (·.logTime)).Pairwise (· ≤ ·))
    (drained : remaining.Perm (Executor.after succeeding config messages).messageBuffer.entries) :
    Aligned config messages (framesOf (reached ((Executor.after succeeding config messages).finalize
      succeeding config remaining)).log) ↔ BucketsUnshared config messages := by
  have start : (Executor.new : Executor Value).Settled := ⟨rfl, rfl⟩
  obtain ⟨settled, frames⟩ := run_frames single unlimited messages start
  have empty : remaining = [] := by
    have nothing : (Executor.after succeeding config messages).messageBuffer.entries = [] := by
      rw [Executor.after, settled.buffer]
      rfl
    rw [nothing] at drained
    exact drained.eq_nil
  have written : framesOf (reached ((Executor.after succeeding config messages).finalize
      succeeding config remaining)).log = messageFrames config 0 messages := by
    subst empty
    unfold Executor.after Executor.finalize
    simp only [List.foldlM_nil]
    generalize messages.foldl (fun s msg => reached (s.processMessage succeeding config msg))
      Executor.new = s at frames
    have shown : framesOf s.log = messageFrames config 0 messages := frames
    cases started : s.episodeStarted <;>
      simpa [started, bind, Except.bind, pure, Except.pure, Executor.finishEpisode,
        Executor.call_succeeding, framesOf] using shown
  rw [written]
  constructor
  · intro aligned
    have strict := aligned.increasing
    rw [messageFrames_timestamps] at strict
    exact strict.imp fun less => Nat.ne_of_lt less
  · exact aligned_of_unshared ordered

/-- Frames of ten nanoseconds in one episode, topics under their own names. -/
def tenNanoseconds : DatasetPipelineConfig where
  frameIntervalNs := 10
  completionWindowNs := 30
  maxFrames := none
  episodeStrategy := .single
  topicMappings := .empty
  imageDimensions := fun _ => (0, 0)

def armState (logTime : Nat) : TimestampedMessage Nat := ⟨"/arm/state", logTime, .array [1]⟩

def armAction (logTime : Nat) : TimestampedMessage Nat := ⟨"/arm/action", logTime, .array [2]⟩

theorem aligned_in_two_buckets :
    Aligned tenNanoseconds [armState 3, armAction 17]
      (framesOf (reached ((Executor.after succeeding tenNanoseconds [armState 3, armAction 17]).finalize
        succeeding tenNanoseconds [])).log) ↔
      BucketsUnshared tenNanoseconds [armState 3, armAction 17] :=
  aligned_iff_unshared rfl rfl (by decide)
    (.of_eq (List.length_eq_zero_iff.mp (by decide)).symm)

/-- A state and an action in one bucket come out as two frames at the same time. -/
theorem shared_bucket_split :
    (framesOf (reached ((Executor.after succeeding tenNanoseconds [armState 3, armAction 7]).finalize
      succeeding tenNanoseconds [])).log).map (fun frame => (frame.timestamp, frame.frameIndex)) =
        [(0, 0), (0, 1)] ∧
    ¬Aligned tenNanoseconds [armState 3, armAction 7]
      (framesOf (reached ((Executor.after succeeding tenNanoseconds [armState 3, armAction 7]).finalize
        succeeding tenNanoseconds [])).log) := by
  have frames : (framesOf (reached ((Executor.after succeeding tenNanoseconds
      [armState 3, armAction 7]).finalize succeeding tenNanoseconds [])).log).map
        (fun frame => (frame.timestamp, frame.frameIndex)) = [(0, 0), (0, 1)] := by decide
  refine ⟨frames, fun aligned => ?_⟩
  have strict := aligned.increasing
  have times := congrArg (List.map Prod.fst) frames
  rw [List.map_map] at times
  simp only [Function.comp_def] at times
  rw [times] at strict
  simp at strict

end Roboflow.Pipeline
