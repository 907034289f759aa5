import Roboflow.Pipeline.Executor

/-! Episode brackets: what the writer's log says of the episodes, under every pattern
of writer results. The executor's flag and index are set before the writer is asked to
start an episode, its counter counts the frames with images, and a failed write leaves
buckets behind that later calls write together; the runs whose steps avoid these are
well bracketed. -/
namespace Roboflow.Pipeline
open Library
open Roboflow.Alignment (AlignedFrame)

/-! ### The writer's log -/

/-- Where the writer stands: no episode is started, one is, or the finish of the one
that is has been called and has failed. -/
inductive Bracket where
  | closed
  | opened
  | pending
  deriving DecidableEq

def Bracket.next : Bracket → WriterCall Value → Bool → Bracket
  | _, .startEpisode _, true => .opened
  | _, .finishEpisode, true => .closed
  | .opened, .finishEpisode, false => .pending
  | b, _, _ => b

def bracket : WriterLog Value → Bracket
  | [] => .closed
  | (c, answer) :: older => (bracket older).next c answer

/-- The indices of the successfully started episodes, oldest first. -/
def startedIndices : WriterLog Value → List Nat
  | [] => []
  | (.startEpisode index, true) :: older => startedIndices older ++ [index]
  | _ :: older => startedIndices older

def finishedEpisodes : WriterLog Value → Nat
  | [] => 0
  | (.finishEpisode, true) :: older => finishedEpisodes older + 1
  | _ :: older => finishedEpisodes older

/-- The frames written since the last successful start. -/
def framesReceived : WriterLog Value → Nat
  | [] => 0
  | (.startEpisode _, true) :: _ => 0
  | (.writeFrame _, true) :: older => framesReceived older + 1
  | _ :: older => framesReceived older

/-- A call stands where it may, after the calls before it. -/
def InPlace (older : WriterLog Value) : WriterCall Value → Bool → Prop
  | .writeFrame _, _ => bracket older = .opened
  | .startEpisode _, true => bracket older = .closed
  | .finishEpisode, true => bracket older ≠ .closed
  | _, _ => True

/-- Frames lie between a successful start and the next finish, successful starts and
finishes alternate, episodes are numbered without repetition or gap, and none is longer
than a frame count allows. -/
structure Bracketed (strategy : EpisodeStrategy) (log : WriterLog Value) : Prop where
  inPlace : ∀ c answer older, ((c, answer) :: older) <:+ log → InPlace older c answer
  indices : startedIndices log = List.range (startedIndices log).length
  bounded : ∀ maxFrames, strategy = .frameCount maxFrames →
    ∀ older, older <:+ log → framesReceived older ≤ maxFrames

/-- The episodes of the writer and the count of them. -/
structure EpisodesBracketed (config : DatasetPipelineConfig) (s : Executor Value) : Prop where
  log : Bracketed config.episodeStrategy s.log
  counted : s.episodesWritten = finishedEpisodes s.log

theorem bracketed_nil (strategy : EpisodeStrategy) : Bracketed strategy ([] : WriterLog Value) where
  inPlace := by
    intro c answer older suffix
    cases List.suffix_nil.mp suffix
  indices := rfl
  bounded := by
    intro maxFrames _ older suffix
    cases List.suffix_nil.mp suffix
    exact Nat.zero_le _

namespace Bracketed

variable {strategy : EpisodeStrategy} {log : WriterLog Value}

/-- One more call. -/
theorem cons (bracketed : Bracketed strategy log) {c : WriterCall Value} {answer : Bool}
    (place : InPlace log c answer)
    (indices : startedIndices ((c, answer) :: log) =
      List.range (startedIndices ((c, answer) :: log)).length)
    (room : ∀ maxFrames, strategy = .frameCount maxFrames →
      framesReceived ((c, answer) :: log) ≤ maxFrames) :
    Bracketed strategy ((c, answer) :: log) where
  inPlace := by
    intro c' answer' older suffix
    rcases List.suffix_cons_iff.mp suffix with same | earlier
    · cases same
      exact place
    · exact bracketed.inPlace c' answer' older earlier
  indices := indices
  bounded := by
    intro maxFrames counts older suffix
    rcases List.suffix_cons_iff.mp suffix with rfl | earlier
    · exact room maxFrames counts
    · exact bracketed.bounded maxFrames counts older earlier

theorem start (bracketed : Bracketed strategy log) (ended : bracket log = .closed)
    (fresh : index = (startedIndices log).length) :
    Bracketed strategy ((.startEpisode index, true) :: log) := by
  refine bracketed.cons ended ?_ fun _ _ => Nat.zero_le _
  simp only [startedIndices, List.length_append, List.length_singleton, List.range_succ]
  rw [← bracketed.indices, fresh]

theorem received (bracketed : Bracketed strategy log)
    (counts : strategy = .frameCount maxFrames) : framesReceived log ≤ maxFrames :=
  bracketed.bounded maxFrames counts log List.suffix_rfl

theorem write (bracketed : Bracketed strategy log) (within : bracket log = .opened)
    (frame : AlignedFrame Value) (answer : Bool)
    (room : ∀ maxFrames, strategy = .frameCount maxFrames → framesReceived log < maxFrames) :
    Bracketed strategy ((.writeFrame frame, answer) :: log) := by
  refine bracketed.cons within bracketed.indices ?_
  intro maxFrames counts
  have below := room maxFrames counts
  cases answer with
  | true => exact below
  | false => exact below.le

theorem finish (bracketed : Bracketed strategy log) (started : bracket log ≠ .closed)
    (answer : Bool) : Bracketed strategy ((.finishEpisode, answer) :: log) := by
  cases answer with
  | true => exact bracketed.cons started bracketed.indices fun _ => bracketed.received
  | false => exact bracketed.cons trivial bracketed.indices fun _ => bracketed.received

theorem finalize (bracketed : Bracketed strategy log) (answer : Bool) :
    Bracketed strategy ((.finalize, answer) :: log) := by
  cases answer with
  | true => exact bracketed.cons trivial bracketed.indices fun _ => bracketed.received
  | false => exact bracketed.cons trivial bracketed.indices fun _ => bracketed.received

end Bracketed

/-! ### The condition -/

/-- Every bucket that gives a frame gives one with an image. -/
def Pictured (config : DatasetPipelineConfig)
    (buckets : List (Nat × List (TimestampedMessage Value))) : Prop :=
  ∀ bucket ∈ buckets, ∀ index frame,
    messagesToFrame config index bucket.2 bucket.1 = .ok (some frame) →
      frame.images.entries.isEmpty = false

/-- Under a frame count: the buckets hold images, and there is room for a frame of each
in an episode that has received `frames`. -/
def Fits (config : DatasetPipelineConfig) (frames : Nat → Nat)
    (buckets : List (Nat × List (TimestampedMessage Value))) : Prop :=
  ∀ maxFrames, config.episodeStrategy = .frameCount maxFrames →
    Pictured config buckets ∧ frames maxFrames + buckets.length ≤ maxFrames

/-- The frames the open episode will have once a full one has been replaced. -/
def carried (s : Executor Value) (maxFrames : Nat) : Nat :=
  if maxFrames ≤ s.framesInEpisode then 0 else s.framesInEpisode

/-- What keeps the brackets when a message comes: the start it asks for succeeds, one
that comes after a failed finish is itself past the gap, and under a frame count the
buckets fit. -/
structure Admissible (writer : Writer Value) (config : DatasetPipelineConfig) (s : Executor Value)
    (msg : TimestampedMessage Value) : Prop where
  starts : s.episodeStarted = false → writer s.log (.startEpisode 0) = true
  restarts : s.episodeStarted = true → s.atBoundary config msg.logTime = true →
    writer ((.finishEpisode, true) :: s.log) (.startEpisode (s.episodeIndex + 1)) = true
  again : ∀ thresholdNs, config.episodeStrategy = .gapBased thresholdNs →
    bracket s.log = .pending → s.crossesGap thresholdNs msg.logTime = true
  fits : Fits config (carried s) (s.buffered config msg).messageBuffer.entries

/-- What keeps them at the end: no frame is left for an episode whose finish failed. -/
structure Finalizable (config : DatasetPipelineConfig) (s : Executor Value) : Prop where
  settled : bracket s.log = .pending → s.messageBuffer.entries = []
  fits : Fits config (fun _ => s.framesInEpisode) s.messageBuffer.entries

/-- The states an executor reaches from message to message, going on after errors. A
message beyond the frame limit is only counted. -/
inductive Runs (writer : Writer Value) (config : DatasetPipelineConfig) : Executor Value → Prop where
  | new : Runs writer config .new
  | message (before : Runs writer config s) (msg : TimestampedMessage Value)
      (admissible : s.atFrameLimit config = false → Admissible writer config s msg) :
      Runs writer config (reached (s.processMessage writer config msg))

/-! ### The invariant -/

/-- The executor's fields agree with the log. -/
structure Sound (config : DatasetPipelineConfig) (s : Executor Value) : Prop where
  bracketed : EpisodesBracketed config s
  flag : s.episodeStarted = true ↔ bracket s.log ≠ .closed
  fresh : s.episodeStarted = false →
    s.log = [] ∧ s.lastTimestampNs = none ∧ s.messageBuffer.entries = []
  index : s.episodeStarted = true → (startedIndices s.log).length = s.episodeIndex + 1
  received : ∀ maxFrames, config.episodeStrategy = .frameCount maxFrames →
    s.framesInEpisode = framesReceived s.log
  pending : bracket s.log = .pending → (∃ thresholdNs,
      config.episodeStrategy = .gapBased thresholdNs) ∨
    ∃ maxFrames, config.episodeStrategy = .frameCount maxFrames ∧ maxFrames ≤ s.framesInEpisode

theorem sound_new (config : DatasetPipelineConfig) : Sound config (.new : Executor Value) where
  bracketed := ⟨bracketed_nil _, rfl⟩
  flag := by simp [Executor.new, bracket]
  fresh _ := ⟨rfl, rfl, rfl⟩
  index started := by cases started
  received _ _ := rfl
  pending later := by cases later

/-- An episode is open for frames. -/
structure Opened (config : DatasetPipelineConfig) (s : Executor Value) : Prop extends
    Sound config s where
  within : bracket s.log = .opened

namespace Opened

variable {config : DatasetPipelineConfig} {s : Executor Value}

theorem started (opened : Opened config s) : s.episodeStarted = true :=
  opened.flag.mpr (by simp [opened.within])

/-- What an open episode rests on. -/
theorem of_same (opened : Opened config s) {s' : Executor Value} (log : s'.log = s.log)
    (written : s'.episodesWritten = s.episodesWritten) (flag : s'.episodeStarted = s.episodeStarted)
    (index : s'.episodeIndex = s.episodeIndex) (frames : s'.framesInEpisode = s.framesInEpisode) :
    Opened config s' where
  bracketed := ⟨by rw [log]; exact opened.bracketed.log, by
    rw [written, log]; exact opened.bracketed.counted⟩
  flag := by rw [flag, log]; exact opened.flag
  fresh unstarted := by rw [flag, opened.started] at unstarted; cases unstarted
  index _ := by rw [log, index]; exact opened.index opened.started
  received maxFrames counts := by rw [frames, log]; exact opened.received maxFrames counts
  pending later := by rw [log, opened.within] at later; cases later
  within := by rw [log]; exact opened.within

/-- A frame to the writer, whose answer decides whether it counts. -/
theorem write (opened : Opened config s) (frame : AlignedFrame Value) (answer : Bool)
    (room : ∀ maxFrames, config.episodeStrategy = .frameCount maxFrames →
      s.framesInEpisode < maxFrames)
    {s' : Executor Value} (log : s'.log = (.writeFrame frame, answer) :: s.log)
    (written : s'.episodesWritten = s.episodesWritten) (flag : s'.episodeStarted = s.episodeStarted)
    (index : s'.episodeIndex = s.episodeIndex)
    (frames : ∀ maxFrames, config.episodeStrategy = .frameCount maxFrames →
      s'.framesInEpisode = s.framesInEpisode + answer.toNat) : Opened config s' := by
  have within : bracket s'.log = .opened := by
    rw [log]
    exact opened.within
  refine ⟨⟨⟨?_, ?_⟩, ?_, ?_, ?_, ?_, ?_⟩, within⟩
  · rw [log]
    refine opened.bracketed.log.write opened.within frame answer ?_
    intro maxFrames counts
    rw [← opened.received maxFrames counts]
    exact room maxFrames counts
  · rw [written, log]
    exact opened.bracketed.counted
  · rw [flag, opened.started, within]
    simp
  · intro unstarted
    rw [flag, opened.started] at unstarted
    cases unstarted
  · intro _
    rw [log, index]
    exact opened.index opened.started
  · intro maxFrames counts
    rw [frames maxFrames counts, opened.received maxFrames counts, log]
    cases answer <;> rfl
  · intro later
    rw [within] at later
    cases later

end Opened

/-! ### Boundaries -/

section Boundary
variable {writer : Writer Value} {config : DatasetPipelineConfig} {s : Executor Value}

/-- The first episode. -/
theorem Sound.first (sound : Sound config s) (unstarted : s.episodeStarted = false)
    (started : writer s.log (.startEpisode 0) = true) :
    ∃ s', s.startEpisode writer 0 = .ok s' ∧ Opened config s' ∧ s'.framesInEpisode = 0 ∧
      s'.lastTimestampNs = none ∧ s'.messageBuffer = s.messageBuffer := by
  obtain ⟨empty, never, -⟩ := sound.fresh unstarted
  have counted := sound.bracketed.counted
  rw [empty] at started counted
  have within : bracket ([(.startEpisode 0, true)] : WriterLog Value) = .opened := rfl
  refine ⟨{ s with
    episodeIndex := 0, framesInEpisode := 0, episodeStarted := true
    log := [(.startEpisode 0, true)] }, ?_, ?_, rfl, never, rfl⟩
  · simp only [Executor.startEpisode, unstarted, Bool.false_and, Bool.false_eq_true, if_false,
      bind, Except.bind, Executor.call, empty, started, if_true]
  · refine ⟨⟨⟨?_, counted⟩, ?_, ?_, fun _ => rfl, fun _ _ => rfl, ?_⟩, rfl⟩
    · exact (bracketed_nil _).start rfl rfl
    · simp [within]
    · intro later
      cases later
    · intro later
      cases later

/-- The end of an episode and the start of the next. -/
theorem Sound.turnover (sound : Sound config s) (started : s.episodeStarted = true)
    (boundary : s.atBoundary config logTime = true)
    (restarts : writer ((.finishEpisode, true) :: s.log) (.startEpisode (s.episodeIndex + 1)) =
      true) :
    (∃ s', ((s.finishEpisode writer).bind fun s => s.startEpisode writer (s.episodeIndex + 1)) =
        .error s' ∧ Sound config s') ∨
    ∃ s', ((s.finishEpisode writer).bind fun s => s.startEpisode writer (s.episodeIndex + 1)) =
        .ok s' ∧ Opened config s' ∧ s'.framesInEpisode = 0 ∧
      s'.messageBuffer = s.messageBuffer := by
  have notClosed := sound.flag.mp started
  have finished := sound.bracketed.log.finish notClosed
  have number := sound.index started
  cases answer : writer s.log .finishEpisode with
  | false =>
    have still : bracket ((.finishEpisode, false) :: s.log) = .pending := by
      simp only [bracket]
      cases at_ : bracket s.log with
      | closed => exact absurd at_ notClosed
      | opened => rfl
      | pending => rfl
    refine .inl ⟨{ s with log := (.finishEpisode, false) :: s.log }, ?_, ?_⟩
    · simp only [Executor.finishEpisode, started, Bool.not_true, Bool.false_eq_true, if_false,
        Executor.call, answer]
      rfl
    · refine ⟨⟨finished false, sound.bracketed.counted⟩, ?_, ?_, fun _ => number,
        sound.received, ?_⟩
      · simp [started, still]
      · intro unstarted
        rw [started] at unstarted
        cases unstarted
      · intro _
        unfold Executor.atBoundary at boundary
        cases strategy : config.episodeStrategy with
        | single => simp [strategy] at boundary
        | gapBased thresholdNs => exact .inl ⟨thresholdNs, rfl⟩
        | frameCount maxFrames => exact .inr ⟨maxFrames, rfl, by simpa [strategy] using boundary⟩
  | true =>
    refine .inr ⟨{ s with
      episodesWritten := s.episodesWritten + 1, episodeIndex := s.episodeIndex + 1
      framesInEpisode := 0, episodeStarted := true
      log := (.startEpisode (s.episodeIndex + 1), true) :: (.finishEpisode, true) :: s.log },
      ?_, ?_, rfl, rfl⟩
    · simp only [Executor.finishEpisode, started, Bool.not_true, Bool.false_eq_true, if_false,
        Executor.call, answer, if_true, bind, Except.bind, Executor.startEpisode, Bool.false_and,
        restarts]
    · refine ⟨⟨⟨?_, ?_⟩, ?_, ?_, ?_, fun _ _ => rfl, ?_⟩, rfl⟩
      · refine (finished true).start rfl ?_
        exact number.symm
      · show s.episodesWritten + 1 = finishedEpisodes s.log + 1
        rw [sound.bracketed.counted]
      · simp [bracket, Bracket.next]
      · intro later
        cases later
      · intro _
        show (startedIndices s.log ++ [s.episodeIndex + 1]).length = _
        simp [number]
      · intro later
        simp [bracket, Bracket.next] at later

/-- Every message that passes the boundary finds an episode open. -/
theorem processBoundary_spec (sound : Sound config s)
    (positive : ∀ maxFrames, config.episodeStrategy = .frameCount maxFrames → 1 ≤ maxFrames)
    (admissible : Admissible writer config s msg) :
    (∃ s', s.processBoundary writer config msg.logTime = .error s' ∧ Sound config s') ∨
    ∃ s', s.processBoundary writer config msg.logTime = .ok s' ∧ Opened config s' ∧
      s'.messageBuffer = s.messageBuffer ∧
      ∀ maxFrames, config.episodeStrategy = .frameCount maxFrames →
        s'.framesInEpisode = carried s maxFrames := by
  cases started : s.episodeStarted with
  | false =>
    obtain ⟨s', ran, opened, zero, never, buffer⟩ := sound.first started (admissible.starts started)
    have inside : s'.atBoundary config msg.logTime = false := by
      unfold Executor.atBoundary
      cases strategy : config.episodeStrategy with
      | single => rfl
      | gapBased thresholdNs => simp [Executor.crossesGap, never]
      | frameCount maxFrames =>
        have := positive maxFrames strategy
        simp only [zero, decide_eq_false_iff_not]
        omega
    refine .inr ⟨s', ?_, opened, buffer, ?_⟩
    · simp only [Executor.processBoundary, started, Bool.not_false, if_true, ran, bind, Except.bind,
        inside, Bool.false_eq_true, if_false]
    · intro maxFrames counts
      have none_yet : s.framesInEpisode = 0 := by
        rw [sound.received maxFrames counts, (sound.fresh started).1]
        rfl
      simp [carried, zero, none_yet]
  | true =>
    cases boundary : s.atBoundary config msg.logTime with
    | true =>
      rcases sound.turnover started boundary (admissible.restarts started boundary) with
        ⟨s', ran, after⟩ | ⟨s', ran, opened, zero, buffer⟩
      · refine .inl ⟨s', ?_, after⟩
        simp only [Executor.processBoundary, started, Bool.not_true, Bool.false_eq_true, if_false,
          bind, Except.bind, boundary, if_true]
        exact ran
      · refine .inr ⟨s', ?_, opened, buffer, ?_⟩
        · simp only [Executor.processBoundary, started, Bool.not_true, Bool.false_eq_true, if_false,
            bind, Except.bind, boundary, if_true]
          exact ran
        · intro maxFrames counts
          simp only [Executor.atBoundary, counts, decide_eq_true_eq] at boundary
          simp [carried, zero, boundary]
    | false =>
      have within : bracket s.log = .opened := by
        cases at_ : bracket s.log with
        | closed => exact absurd at_ (sound.flag.mp started)
        | opened => rfl
        | pending =>
          rcases sound.pending at_ with ⟨thresholdNs, gaps⟩ | ⟨maxFrames, counts, full⟩
          · have again := admissible.again thresholdNs gaps at_
            simp [Executor.atBoundary, gaps, again] at boundary
          · simp only [Executor.atBoundary, counts, decide_eq_false_iff_not] at boundary
            exact absurd full boundary
      refine .inr ⟨s, ?_, ⟨sound, within⟩, rfl, ?_⟩
      · simp only [Executor.processBoundary, started, Bool.not_true, Bool.false_eq_true, if_false,
          bind, Except.bind, boundary]
      · intro maxFrames counts
        simp only [Executor.atBoundary, counts, decide_eq_false_iff_not] at boundary
        simp [carried, boundary]

end Boundary

/-! ### Frames -/

section Frames
variable {writer : Writer Value} {config : DatasetPipelineConfig} {s : Executor Value}

theorem Fits.mono {frames frames' : Nat → Nat}
    {buckets buckets' : List (Nat × List (TimestampedMessage Value))}
    (fits : Fits config frames buckets) (kept : buckets' ⊆ buckets)
    (fewer : ∀ maxFrames, config.episodeStrategy = .frameCount maxFrames →
      frames' maxFrames + buckets'.length ≤ frames maxFrames + buckets.length) :
    Fits config frames' buckets' := by
  intro maxFrames counts
  obtain ⟨pictured, room⟩ := fits maxFrames counts
  exact ⟨fun bucket member => pictured bucket (kept member), (fewer maxFrames counts).trans room⟩

/-- One bucket of those that fit. -/
theorem writeBucket_spec (writer : Writer Value) (opened : Opened config s)
    {buckets : List (Nat × List (TimestampedMessage Value))}
    (fits : Fits config (fun _ => s.framesInEpisode) buckets)
    (member : (timestamp, messages) ∈ buckets) :
    (∃ s', s.writeBucket writer config timestamp messages = .error s' ∧ Opened config s') ∨
    ∃ s', s.writeBucket writer config timestamp messages = .ok s' ∧ Opened config s' ∧
      s'.messageBuffer = s.messageBuffer ∧ s'.framesInEpisode ≤ s.framesInEpisode + 1 := by
  unfold Executor.writeBucket
  cases made : messagesToFrame config s.frameIndex messages timestamp with
  | error e => exact .inr ⟨s, rfl, opened, rfl, by omega⟩
  | ok given =>
    cases given with
    | none => exact .inr ⟨s, rfl, opened, rfl, by omega⟩
    | some frame =>
      have room : ∀ maxFrames, config.episodeStrategy = .frameCount maxFrames →
          s.framesInEpisode < maxFrames := by
        intro maxFrames counts
        have positive := List.length_pos_of_mem member
        have room : s.framesInEpisode + buckets.length ≤ maxFrames := (fits maxFrames counts).2
        omega
      have pictured : ∀ maxFrames, config.episodeStrategy = .frameCount maxFrames →
          frame.images.entries.isEmpty = false := by
        intro maxFrames counts
        exact (fits maxFrames counts).1 (timestamp, messages) member s.frameIndex frame made
      cases answer : writer s.log (.writeFrame frame) with
      | false =>
        refine .inl ⟨{ s with log := (.writeFrame frame, false) :: s.log }, ?_, ?_⟩
        · simp only [Executor.writeFrame, Executor.call, answer, Bool.false_eq_true, if_false, bind,
            Except.bind]
        · exact opened.write frame false room rfl rfl rfl rfl fun _ _ => rfl
      | true =>
        refine .inr ⟨{ s with
          log := (.writeFrame frame, true) :: s.log
          framesWritten := s.framesWritten + 1
          frameIndex := s.frameIndex + 1
          framesInEpisode :=
            if frame.images.entries.isEmpty then s.framesInEpisode else s.framesInEpisode + 1 },
          ?_, ?_, rfl, ?_⟩
        · simp only [Executor.writeFrame, Executor.call, answer, if_true, bind, Except.bind]
        · refine opened.write frame true room rfl rfl rfl rfl ?_
          intro maxFrames counts
          simp [pictured maxFrames counts]
        · simp only
          split <;> omega

theorem completeFrames_opened (fuel : Nat) (opened : Opened config s)
    (fits : Fits config (fun _ => s.framesInEpisode) s.messageBuffer.entries) :
    Opened config (reached (Executor.completeFrames writer config fuel s)) := by
  induction fuel generalizing s with
  | zero => exact opened
  | succ fuel ih =>
    cases current : s.currentTimestampNs with
    | none =>
      simp only [Executor.completeFrames, current]
      exact opened
    | some timestamp =>
      cases bucket : s.messageBuffer.get timestamp with
      | none =>
        simp only [Executor.completeFrames, current, bucket]
        exact opened.of_same rfl rfl rfl rfl rfl
      | some messages =>
        have member := (s.messageBuffer.mem_entries).mpr bucket
        rw [Executor.completeFrames_pass current bucket]
        have removed : Opened config { s with messageBuffer := s.messageBuffer.delete timestamp } :=
          opened.of_same rfl rfl rfl rfl rfl
        rcases writeBucket_spec writer removed fits member with
          ⟨s', wrote, failed⟩ | ⟨s', wrote, opened', buffer, frames⟩
        · rw [wrote]
          exact failed
        · rw [wrote]
          refine ih (opened'.of_same rfl rfl rfl rfl rfl) (fits.mono ?_ ?_)
          · simp only [buffer, Kv.delete]
            exact List.filter_sublist.subset
          · intro _ _
            have fewer : (s.messageBuffer.delete timestamp).entries.length <
                s.messageBuffer.entries.length := by
              refine List.length_filter_lt_length_iff_exists.mpr ⟨_, member, ?_⟩
              simp
            simp only [buffer] at frames ⊢
            omega

/-- The buckets that are left when the messages end, in any order. -/
theorem drain_opened (writer : Writer Value)
    (remaining : List (Nat × List (TimestampedMessage Value)))
    (opened : Opened config s) (fits : Fits config (fun _ => s.framesInEpisode) remaining) :
    Opened config (reached (s.drain writer config remaining)) := by
  unfold Executor.drain
  induction remaining generalizing s with
  | nil => exact opened
  | cons bucket rest ih =>
    rw [List.foldlM_cons]
    by_cases blank : bucket.2.isEmpty
    · rw [if_pos blank]
      refine ih opened (fits.mono (List.subset_cons_self _ _) ?_)
      intro _ _
      simp
    · rw [if_neg blank]
      rcases writeBucket_spec writer opened fits List.mem_cons_self with
        ⟨s', wrote, failed⟩ | ⟨s', wrote, opened', -, frames⟩
      · rw [wrote]
        exact failed
      · rw [wrote]
        refine ih opened' (fits.mono (List.subset_cons_self _ _) ?_)
        intro _ _
        simp only [List.length_cons]
        omega

end Frames

/-! ### Runs -/

section Runs
variable {writer : Writer Value} {config : DatasetPipelineConfig} {s : Executor Value}

theorem Sound.counted (sound : Sound config s) (n : Nat) :
    Sound config { s with messagesProcessed := n } :=
  ⟨⟨sound.bracketed.log, sound.bracketed.counted⟩, sound.flag, sound.fresh, sound.index,
    sound.received, sound.pending⟩

theorem processMessage_sound (sound : Sound config s)
    (positive : ∀ maxFrames, config.episodeStrategy = .frameCount maxFrames → 1 ≤ maxFrames)
    (admissible : s.atFrameLimit config = false → Admissible writer config s msg) :
    Sound config (reached (s.processMessage writer config msg)) := by
  unfold Executor.processMessage
  have counted := sound.counted (s.messagesProcessed + 1)
  have admitted : s.atFrameLimit config = false →
      Admissible writer config { s with messagesProcessed := s.messagesProcessed + 1 } msg := by
    intro below
    have given := admissible below
    exact ⟨given.starts, given.restarts, given.again, given.fits⟩
  have limit : ({ s with messagesProcessed := s.messagesProcessed + 1 } : Executor Value).atFrameLimit
      config = s.atFrameLimit config := rfl
  rw [← limit] at admitted
  generalize { s with messagesProcessed := s.messagesProcessed + 1 } = s₁ at counted admitted ⊢
  cases atLimit : s₁.atFrameLimit config with
  | true =>
    simp only [atLimit, if_true]
    exact counted
  | false =>
    have given := admitted atLimit
    simp only [atLimit, Bool.false_eq_true, if_false]
    rcases processBoundary_spec counted positive given with
      ⟨s₂, ran, failed⟩ | ⟨s₂, ran, opened, buffer, frames⟩
    · rw [ran]
      exact failed
    · rw [ran]
      simp only [bind, Except.bind]
      have seen : Opened config { s₂ with lastTimestampNs := some msg.logTime } :=
        opened.of_same rfl rfl rfl rfl rfl
      split
      · exact seen.toSound
      · refine (completeFrames_opened _ ?_ ?_).toSound
        · split <;> exact opened.of_same rfl rfl rfl rfl rfl
        · have fits : Fits config (fun _ => s₂.framesInEpisode)
              (s₂.buffered config msg).messageBuffer.entries := by
            simp only [Executor.buffered, buffer]
            intro maxFrames counts
            rw [frames maxFrames counts]
            exact given.fits maxFrames counts
          split <;> exact fits

theorem Runs.sound (run : Runs writer config s)
    (positive : ∀ maxFrames, config.episodeStrategy = .frameCount maxFrames → 1 ≤ maxFrames) :
    Sound config s := by
  induction run with
  | new => exact sound_new config
  | message _ _ admissible ih => exact processMessage_sound ih positive admissible

/-- The last finish, and the end of the writer. -/
theorem finalized (sound : Sound config s) :
    EpisodesBracketed config (reached ((if s.episodeStarted then s.finishEpisode writer else .ok s).bind
      fun s => s.call writer .finalize)) := by
  have ending : ∀ s : Executor Value, EpisodesBracketed config s →
      EpisodesBracketed config (reached (s.call writer .finalize)) := by
    intro s kept
    simp only [Executor.call]
    split <;> exact ⟨kept.log.finalize _, kept.counted⟩
  cases started : s.episodeStarted with
  | false => exact ending s sound.bracketed
  | true =>
    have finished := sound.bracketed.log.finish (sound.flag.mp started)
    simp only [if_true, Executor.finishEpisode, started, Bool.not_true, Bool.false_eq_true, if_false,
      Executor.call]
    cases answer : writer s.log .finishEpisode with
    | false => exact ⟨finished false, sound.bracketed.counted⟩
    | true =>
      refine ending _ ⟨finished true, ?_⟩
      show s.episodesWritten + 1 = finishedEpisodes s.log + 1
      rw [sound.bracketed.counted]

/-- In every run whose messages are admissible, under every strategy and every pattern
of writer results, the episodes are well bracketed and bounded in every state reached,
and after the end of the run. -/
theorem episodes_bracketed
    (positive : ∀ maxFrames, config.episodeStrategy = .frameCount maxFrames → 1 ≤ maxFrames)
    (run : Runs writer config s) :
    EpisodesBracketed config s ∧
      (Finalizable config s → ∀ remaining, remaining.Perm s.messageBuffer.entries →
        EpisodesBracketed config (reached (s.finalize writer config remaining))) := by
  have sound := run.sound positive
  refine ⟨sound.bracketed, ?_⟩
  intro finalizable remaining drained
  have emptied : Sound config { s with messageBuffer := .empty } :=
    ⟨⟨sound.bracketed.log, sound.bracketed.counted⟩, sound.flag,
      fun unstarted => ⟨(sound.fresh unstarted).1, (sound.fresh unstarted).2.1, rfl⟩, sound.index,
      sound.received, sound.pending⟩
  by_cases within : bracket s.log = .opened
  · have fits : Fits config (fun _ => s.framesInEpisode) remaining := by
      refine finalizable.fits.mono drained.subset ?_
      intro _ _
      rw [drained.length_eq]
    have done := drain_opened writer remaining ⟨emptied, within⟩ fits
    rw [Executor.finalize_eq]
    revert done
    cases ({ s with messageBuffer := .empty } : Executor Value).drain writer config remaining with
    | error s' => exact fun done => done.bracketed
    | ok s' => exact fun done => finalized done.toSound
  · have nothing : remaining = [] := by
      have blank : s.messageBuffer.entries = [] := by
        cases at_ : bracket s.log with
        | closed =>
          cases started : s.episodeStarted with
          | false => exact (sound.fresh started).2.2
          | true => exact absurd at_ (sound.flag.mp started)
        | opened => exact absurd at_ within
        | pending => exact finalizable.settled at_
      rw [blank] at drained
      exact drained.eq_nil
    subst nothing
    rw [Executor.finalize_eq]
    exact finalized emptied

end Runs

/-- One frame an episode, a frame every ten nanoseconds. -/
def oneFrameEpisodes : DatasetPipelineConfig where
  frameIntervalNs := 10
  completionWindowNs := 30
  maxFrames := none
  episodeStrategy := .frameCount 1
  topicMappings := .empty
  imageDimensions := fun _ => (0, 0)

def cameraMessage (logTime : Nat) : TimestampedMessage Nat :=
  ⟨"/camera", logTime, .struct ⟨false, false, some "jpeg", some [1], none, none, none⟩⟩

/-- Only the second call to finish an episode succeeds. -/
def reluctant : Writer Nat := fun log c =>
  match c with
  | .finishEpisode => bracket log = .pending
  | _ => true

/-- A finish fails and is called again for the next message. -/
theorem episodes_bracketed_after_retry : ∃ s : Executor Nat,
    Runs reluctant oneFrameEpisodes s ∧ startedIndices s.log = [0, 1] ∧
      EpisodesBracketed oneFrameEpisodes s ∧
      EpisodesBracketed oneFrameEpisodes (reached (s.finalize reluctant oneFrameEpisodes [])) := by
  have pictured : ∀ t, Pictured oneFrameEpisodes [(t, [cameraMessage t])] := by
    intro t bucket member index frame made
    rw [List.mem_singleton.mp member] at made
    cases made
    rfl
  have positive : ∀ maxFrames, oneFrameEpisodes.episodeStrategy = .frameCount maxFrames →
      1 ≤ maxFrames := by
    intro maxFrames counts
    cases counts
    exact Nat.le_refl 1
  have none_gap : ∀ thresholdNs, oneFrameEpisodes.episodeStrategy ≠ .gapBased thresholdNs := by
    intro thresholdNs gaps
    cases gaps
  have r1 : Runs reluctant oneFrameEpisodes _ := .message .new (cameraMessage 0) fun _ =>
    ⟨fun _ => rfl, fun _ _ => rfl, fun t gaps => absurd gaps (none_gap t), fun m counts => by
      cases counts
      exact ⟨pictured 0, by decide⟩⟩
  have r2 : Runs reluctant oneFrameEpisodes _ := .message r1 (cameraMessage 10) fun _ =>
    ⟨fun _ => rfl, fun _ _ => rfl, fun t gaps => absurd gaps (none_gap t), fun m counts => by
      cases counts
      exact ⟨pictured 10, by decide⟩⟩
  have r3 : Runs reluctant oneFrameEpisodes _ := .message r2 (cameraMessage 20) fun _ =>
    ⟨fun _ => rfl, fun _ _ => rfl, fun t gaps => absurd gaps (none_gap t), fun m counts => by
      cases counts
      exact ⟨pictured 20, by decide⟩⟩
  obtain ⟨kept, ended⟩ := episodes_bracketed positive r3
  refine ⟨_, r3, by decide, kept, ended ⟨fun _ => by decide, ?_⟩ [] ?_⟩
  · intro m counts
    cases counts
    refine ⟨?_, by decide⟩
    intro bucket member
    cases member
  · exact .of_eq (List.length_eq_zero_iff.mp (by decide)).symm

/-- A frame reaches the writer although no start has succeeded: the executor's flag was
set before the writer was asked. -/
theorem frame_outside_episode :
    let failsFirst : Writer Nat := fun log _ => !log.isEmpty
    let s := reached ((reached ((Executor.new : Executor Nat).processMessage failsFirst
      oneFrameEpisodes (cameraMessage 0))).processMessage failsFirst oneFrameEpisodes
        (cameraMessage 10))
    startedIndices s.log = [] ∧ framesReceived s.log = 1 ∧
      ¬EpisodesBracketed oneFrameEpisodes s := by
  intro failsFirst s
  refine ⟨by decide, by decide, ?_⟩
  intro kept
  obtain ⟨frame, log⟩ : ∃ frame, s.log = [(.writeFrame frame, true), (.startEpisode 0, false)] :=
    ⟨_, rfl⟩
  have place := kept.log.inPlace (.writeFrame frame) true [(.startEpisode 0, false)]
    (log ▸ List.suffix_rfl)
  cases place

end Roboflow.Pipeline
