import Roboflow.Lerobot.VideoBuffers

/-! The files, metadata entries and statistics of the episodes of one dataset. A start
of an episode takes the length of a buffer that every finish empties as the episode's
index, and the statistics count the frames of all episodes so far. -/
namespace Roboflow.Lerobot
open Library
open Roboflow.Alignment (AlignedFrame ImageData)

variable {Value : Type} [Zero Value]

namespace LerobotWriter

/-- `start_episode`, the frames, `finish_episode`. -/
def runEpisode (w : LerobotWriter Value) (frames : List (AlignedFrame Value)) :
    Except String (LerobotWriter Value × EpisodeStats) :=
  (frames.foldl writeFrame w.startEpisode).finishEpisode

def runEpisodes (w : LerobotWriter Value) :
    List (List (AlignedFrame Value)) → Except String (LerobotWriter Value × List EpisodeStats)
  | [] => .ok (w, [])
  | frames :: rest => do
    let (w, stats) ← w.runEpisode frames
    let (w, later) ← w.runEpisodes rest
    .ok (w, stats :: later)

/-- The episodes and `finalize`: the final writer and the statistics of the episodes. -/
def runDataset (w : LerobotWriter Value) (episodes : List (List (AlignedFrame Value))) :
    Except String (LerobotWriter Value × List EpisodeStats) := do
  let (w, stats) ← w.runEpisodes episodes
  let (w, _) ← w.finalize
  .ok (w, stats)

end LerobotWriter

/-! ### What the episodes are owed -/

/-- The episodes that have a frame. -/
def withFrames (episodes : List (List (AlignedFrame Value))) : List (List (AlignedFrame Value)) :=
  episodes.filter fun frames => !frames.isEmpty

/-- The camera has an image that can be encoded. -/
def HasPicture (decode : Decoder) (frames : List (AlignedFrame Value)) (camera : String) : Prop :=
  ∃ image ∈ LerobotWriter.imagesOf camera frames, prepared decode image ≠ none

/-- Each episode has an index of its own from the first one on, its parquet and video
files and its metadata entry are under that index, none of them is overwritten, its
statistics report its own frames, and the totals are the sums over the episodes. -/
structure KeptApart (start : LerobotWriter Value) (episodes : List (List (AlignedFrame Value)))
    (final : LerobotWriter Value) (stats : List EpisodeStats) : Prop where
  ownCounts : stats.map (·.frames) = episodes.map List.length
  entries : final.metadata.episodes.map (fun info => (info.episodeIndex, info.length)) =
    (withFrames episodes).mapIdx fun k frames => (start.episodeIndex + k, frames.length)
  episodeTotal : final.metadata.episodes.length = (withFrames episodes).length
  frameTotal : final.metadata.totalFrames = (episodes.map List.length).sum
  parquet : ∀ k frames, (withFrames episodes)[k]? = some frames →
    let index := start.episodeIndex + k
    ∃ rows, episodeRows (frames.map (.fromAlignedFrame · index)) index (start.chunkOf index) =
      .ok rows ∧ final.parquetFiles.get (parquetPath (start.chunkOf index) index) = some rows
  videos : ∀ k frames, (withFrames episodes)[k]? = some frames →
    let index := start.episodeIndex + k
    ∀ camera, HasPicture start.decode frames camera →
      (final.videoFiles.get (videoPath (start.chunkOf index) camera index)).isSome
  noOtherVideo : ∀ path, (final.videoFiles.get path).isSome → ∃ k frames camera,
    (withFrames episodes)[k]? = some frames ∧ HasPicture start.decode frames camera ∧
      path = videoPath (start.chunkOf (start.episodeIndex + k)) camera (start.episodeIndex + k)
  notOverwritten : ∀ before after, episodes = before ++ after → after ≠ [] →
    ∀ w earlier, start.runEpisodes before = .ok (w, earlier) →
      (∀ path rows, w.parquetFiles.get path = some rows →
        final.parquetFiles.get path = some rows) ∧
      ∀ path video, w.videoFiles.get path = some video →
        final.videoFiles.get path = some video

/-- All calls succeed and the episodes are kept apart. -/
def DatasetKeptApart (start : LerobotWriter Value)
    (episodes : List (List (AlignedFrame Value))) : Prop :=
  ∃ final stats, start.runDataset episodes = .ok (final, stats) ∧
    KeptApart start episodes final stats

def hasObservation (frame : AlignedFrame Value) : Bool :=
  frame.states.entries.any fun entry => isObservation entry.1

/-- An episode with frames is the last one, the first index is 0, and one of its frames
has an observation. -/
def OnlyLastHasFrames (index : Nat) (episodes : List (List (AlignedFrame Value))) : Prop :=
  ∀ before frames after, episodes = before ++ frames :: after → frames ≠ [] →
    after = [] ∧ index = 0 ∧ ∃ frame ∈ frames, hasObservation frame = true

/-- A local writer with an index and a chunk size. -/
def localWriter (flushing : FlushingConfig) (decode : Decoder) (perChunk : ℕ+) (index : Nat) :
    LerobotWriter Value :=
  ((LerobotWriter.newLocal flushing decode).setEpisodesPerChunk perChunk).setEpisodeIndex index

namespace LerobotWriter

variable {w w' : LerobotWriter Value}

/-! ### One episode -/

/-- Between episodes: nothing is buffered. -/
structure Ready (w : LerobotWriter Value) : Prop where
  noFrames : w.frameData = []
  noImages : ∀ camera, w.imageBuffers.bucket camera = []
  stored : w.Stored

theorem episodeRows_ok_iff (frameData : List (LerobotFrame Value)) (index chunk : Nat) :
    (∃ rows, episodeRows frameData index chunk = .ok rows) ↔
      ∃ frame ∈ frameData, frame.observationState ≠ none := by
  unfold episodeRows
  cases found : frameData.findSome? (·.observationState) with
  | none =>
    have none_ := List.findSome?_eq_none_iff.mp found
    constructor
    · rintro ⟨rows, made⟩
      cases made
    · rintro ⟨frame, member, some_⟩
      exact absurd (none_ frame member) some_
  | some state =>
    obtain ⟨frame, member, observed⟩ := List.exists_of_findSome?_eq_some found
    exact ⟨fun _ => ⟨frame, member, by simp [observed]⟩, fun _ => ⟨_, rfl⟩⟩

omit [Zero Value] in
theorem observationState_ne_none (frame : AlignedFrame Value) (index : Nat) :
    (LerobotFrame.fromAlignedFrame frame index).observationState ≠ none ↔
      hasObservation frame = true := by
  simp only [LerobotFrame.fromAlignedFrame, hasObservation, ne_eq, Option.map_eq_none_iff,
    List.find?_eq_none, List.any_eq_true]
  push Not
  rfl

/-- The writer after the finish of an episode with rows. -/
def finished (w : LerobotWriter Value) (rows : List (ParquetRow Value)) : LerobotWriter Value :=
  { w.encodeVideos with
    parquetFiles := w.parquetFiles.put (parquetPath w.chunkIndex w.episodeIndex) rows
    metadata := w.metadata.addEpisode w.episodeIndex w.frameData.length [w.episodeIndex]
    totalFrames := w.totalFrames + w.frameData.length
    frameData := []
    imageBuffers := w.imageBuffers.drained
    segmentIndex := w.segmentIndex + 1 }

theorem finishEpisode_blank (blank : w.frameData = []) :
    w.finishEpisode = .ok (w, ⟨w.totalFrames, w.episodeIndex⟩) := by
  simp [finishEpisode, finishEpisodeWith, frameCount, blank, bind, Except.bind]

theorem finishEpisode_rows (some_ : w.frameData ≠ []) :
    w.finishEpisode = (episodeRows w.frameData w.episodeIndex w.chunkIndex).map fun rows =>
      (w.finished rows, ⟨w.frameCount, w.episodeIndex⟩) := by
  have full : w.frameData.isEmpty = false := by simpa using some_
  simp only [finishEpisode, finishEpisodeWith, writeEpisodeParquet, full, Bool.false_eq_true,
    if_false, bind, Except.bind]
  cases episodeRows w.frameData w.episodeIndex w.chunkIndex with
  | error e => rfl
  | ok rows => rfl

omit [Zero Value] in
theorem Stored.finished (stored : Stored w) (rows : List (ParquetRow Value)) :
    Stored (w.finished rows) := by
  intro camera path member
  obtain ⟨⟨i, below, named⟩, kept⟩ := stored camera path member
  exact ⟨⟨i, below.trans (Nat.lt_succ_self _), named⟩, kept⟩

/-- The writer after an episode's frames, before its finish. -/
def filled (w : LerobotWriter Value) (frames : List (AlignedFrame Value)) : LerobotWriter Value :=
  frames.foldl writeFrame w.startEpisode

omit [Zero Value] in
theorem Ready.written (ready : Ready w) (frames : List (AlignedFrame Value)) :
    Wrote w frames (frames.foldl writeFrame w) ∧ (frames.foldl writeFrame w).Stored ∧
      (frames.foldl writeFrame w).frameData = frames.map (.fromAlignedFrame · w.episodeIndex) := by
  obtain ⟨points, named, ran⟩ := w.foldl_writeFrame frames
  have wrote := w.writeFrames_wrote points
  have kept := ready.stored.writeFrames points
  rw [named, ← ran] at wrote
  rw [← ran] at kept
  refine ⟨wrote, kept, ?_⟩
  rw [wrote.frameData, ready.noFrames, List.nil_append]

omit [Zero Value] in
theorem Ready.filled (ready : Ready w) (frames : List (AlignedFrame Value)) :
    Wrote w.startEpisode frames (w.filled frames) ∧ (w.filled frames).Stored ∧
      (w.filled frames).frameData = frames.map (.fromAlignedFrame · 0) ∧
      (w.filled frames).episodeIndex = 0 := by
  have zero : w.startEpisode.episodeIndex = 0 := by simp [startEpisode, ready.noFrames]
  have started : Ready w.startEpisode := ⟨ready.noFrames, ready.noImages, ready.stored⟩
  obtain ⟨wrote, stored, data⟩ := started.written frames
  rw [zero] at data
  exact ⟨wrote, stored, data, wrote.episodeIndex.trans zero⟩

/-- What every episode does that succeeds: its statistics and its metadata entry. -/
theorem Ready.runEpisode (ready : Ready w) (ran : w.runEpisode frames = .ok (w', stats)) :
    Ready w' ∧ stats.frames = w.totalFrames + frames.length ∧
      w'.totalFrames = w.totalFrames + frames.length ∧
      w'.metadata.episodes.map (fun info => (info.episodeIndex, info.length)) =
        w.metadata.episodes.map (fun info => (info.episodeIndex, info.length)) ++
          (withFrames [frames]).map fun frames => (0, frames.length) := by
  obtain ⟨wrote, stored, data, index⟩ := ready.filled frames
  change (w.filled frames).finishEpisode = _ at ran
  by_cases blank : frames = []
  · subst blank
    rw [finishEpisode_blank data] at ran
    cases ran
    refine ⟨⟨data, ready.noImages, stored⟩, ?_, ?_, ?_⟩
    · exact wrote.totalFrames
    · exact wrote.totalFrames
    · simp [withFrames, wrote.metadata, startEpisode]
  · have some_ : (w.filled frames).frameData ≠ [] := by simpa [data] using blank
    rw [finishEpisode_rows some_] at ran
    cases made : episodeRows (w.filled frames).frameData (w.filled frames).episodeIndex
        (w.filled frames).chunkIndex with
    | error e =>
      rw [made] at ran
      cases ran
    | ok rows =>
      rw [made] at ran
      cases ran
      have length : (w.filled frames).frameData.length = frames.length := by simp [data]
      refine ⟨⟨rfl, fun camera => Kv.bucket_drained _ camera, stored.finished rows⟩, ?_, ?_, ?_⟩
      · simp only [frameCount, length, wrote.totalFrames, startEpisode]
      · simp only [finished, length, wrote.totalFrames, startEpisode]
      · have full : withFrames [frames] = [frames] := by simp [withFrames, blank]
        simp only [finished, MetadataCollector.addEpisode, length, index, wrote.metadata, full,
          startEpisode, List.map_append, List.map_cons, List.map_nil]

/-- The frames counted up to and with each episode. -/
def cumulative : Nat → List (List (AlignedFrame Value)) → List Nat
  | _, [] => []
  | total, frames :: rest => (total + frames.length) :: cumulative (total + frames.length) rest

theorem Ready.runEpisodes (ready : Ready w) (ran : w.runEpisodes episodes = .ok (w', stats)) :
    Ready w' ∧ stats.map (·.frames) = cumulative w.totalFrames episodes ∧
      w'.metadata.episodes.map (fun info => (info.episodeIndex, info.length)) =
        w.metadata.episodes.map (fun info => (info.episodeIndex, info.length)) ++
          (withFrames episodes).map fun frames => (0, frames.length) := by
  induction episodes generalizing w stats with
  | nil =>
    cases ran
    exact ⟨ready, rfl, by simp [withFrames]⟩
  | cons frames rest ih =>
    simp only [LerobotWriter.runEpisodes, bind, Except.bind] at ran
    cases first : w.runEpisode frames with
    | error e =>
      rw [first] at ran
      cases ran
    | ok after =>
      obtain ⟨w₁, own⟩ := after
      rw [first] at ran
      obtain ⟨ready₁, frames₁, total₁, entries₁⟩ := ready.runEpisode first
      cases later : w₁.runEpisodes rest with
      | error e =>
        simp only [later] at ran
        cases ran
      | ok last =>
        obtain ⟨w₂, others⟩ := last
        simp only [later] at ran
        cases ran
        obtain ⟨ready₂, stats₂, entries₂⟩ := ih ready₁ later
        refine ⟨ready₂, ?_, ?_⟩
        · simp only [List.map_cons, cumulative, frames₁, stats₂, total₁]
        · have split : withFrames (frames :: rest) = withFrames [frames] ++ withFrames rest := by
            simp only [withFrames, List.filter_cons, List.filter_nil]
            split <;> simp
          rw [entries₂, entries₁, split, List.map_append, List.append_assoc]

/-- Nothing is left for the end but the segments. -/
theorem Ready.finalize (ready : Ready w) :
    ∃ final total, w.finalize = .ok (final, total) ∧ final.metadata = w.metadata ∧
      final.parquetFiles = w.parquetFiles ∧
      (∀ camera, final.videoFiles.get (videoPath w.chunkIndex camera w.episodeIndex) =
        if w.flushed camera = [] then
          w.videoFiles.get (videoPath w.chunkIndex camera w.episodeIndex)
        else some (w.flushed camera)) ∧
      ∀ path, (∀ camera, path ≠ videoPath w.chunkIndex camera w.episodeIndex) →
        final.videoFiles.get path = w.videoFiles.get path := by
  obtain ⟨final, merged, facts⟩ := mergePendingSegments_spec ready.stored
  have empty : w.buffersEmpty = true := buffersEmpty_iff.mpr ready.noImages
  refine ⟨final, ⟨final.totalFrames, final.imagesEncoded, final.totalFrames * 2⟩, ?_, facts⟩
  simp only [LerobotWriter.finalize, empty, if_true, ready.noFrames, List.isEmpty_nil, bind,
    Except.bind, merged]

/-! ### Cameras with a picture -/

/-- A camera has a picture waiting to be in a video. -/
def Shows (w : LerobotWriter Value) (camera : String) : Prop :=
  w.flushed camera ≠ [] ∨ w.pictures camera ≠ []

omit [Zero Value] in
theorem pictures_addFrame (frame : AlignedFrame Value) (camera : String) :
    (w.addFrame frame).pictures camera ≠ [] ↔ w.pictures camera ≠ [] ∨
      ∃ image, frame.images.get camera = some image ∧ prepared w.decode image ≠ none := by
  have buffer := w.addFrame_bucket frame camera
  simp only [pictures, ne_eq, buildFrameBuffer_eq_nil_iff, buffer, List.mem_append,
    Option.mem_toList]
  constructor
  · intro some_
    by_contra neither
    push Not at neither
    apply some_
    rintro image (old | new)
    · exact neither.1 image old
    · exact neither.2 image new
  · rintro (old | ⟨image, read, ready⟩) none_
    · exact old fun image member => none_ image (.inl member)
    · exact ready (none_ image (.inr read))

omit [Zero Value] in
theorem Stored.shows_writeFrameAt (stored : Stored w) (frame : AlignedFrame Value) (flush : Bool)
    (camera : String) : (w.writeFrameAt frame flush).Shows camera ↔ w.Shows camera ∨
      ∃ image, frame.images.get camera = some image ∧ prepared w.decode image ≠ none := by
  have added : (w.addFrame frame).Shows camera ↔ w.Shows camera ∨
      ∃ image, frame.images.get camera = some image ∧ prepared w.decode image ≠ none := by
    rw [Shows, pictures_addFrame, ← or_assoc]
    rfl
  cases flush with
  | false => exact added
  | true =>
    have kept : (w.addFrame frame).Stored := stored
    have drained : (w.addFrame frame).flushVideoSegment.pictures camera = [] :=
      pictures_of_empty (flushVideoSegment_bucket _ camera)
    rw [← added]
    simp only [LerobotWriter.writeFrameAt, if_true, Shows, kept.flushed_flush, drained, ne_eq,
      List.append_eq_nil_iff, not_true_eq_false, or_false, not_and_or]

omit [Zero Value] in
theorem Stored.shows_writeFrames (stored : Stored w) (points : List (AlignedFrame Value × Bool))
    (camera : String) : (w.writeFrames points).Shows camera ↔
      w.Shows camera ∨ HasPicture w.decode (points.map Prod.fst) camera := by
  induction points generalizing w with
  | nil => simp [LerobotWriter.writeFrames, HasPicture, imagesOf]
  | cons point rest ih =>
    have step := ih (stored.writeFrameAt point.1 point.2)
    have first := stored.shows_writeFrameAt point.1 point.2 camera
    have same := (w.writeFrameAt_wrote point.1 point.2).decode
    rw [first, same, or_assoc] at step
    refine step.trans (or_congr_right ?_)
    simp only [HasPicture, imagesOf, List.map_cons, List.mem_filterMap, List.mem_cons]
    constructor
    · rintro (⟨image, read, ready⟩ | ⟨image, ⟨frame, member, read⟩, ready⟩)
      · exact ⟨image, ⟨point.1, .inl rfl, read⟩, ready⟩
      · exact ⟨image, ⟨frame, .inr member, read⟩, ready⟩
    · rintro ⟨image, ⟨frame, rfl | member, read⟩, ready⟩
      · exact .inl ⟨image, read, ready⟩
      · exact .inr ⟨image, ⟨frame, member, read⟩, ready⟩

omit [Zero Value] in
/-- Before a finish, a camera shows when an image of the episode can be encoded. -/
theorem Ready.shows_filled (ready : Ready w) (none_pending : ∀ camera, w.flushed camera = [])
    (frames : List (AlignedFrame Value)) (camera : String) :
    (w.filled frames).Shows camera ↔ HasPicture w.decode frames camera := by
  obtain ⟨points, named, ran⟩ := w.startEpisode.foldl_writeFrame frames
  have stored : w.startEpisode.Stored := ready.stored
  have shows := stored.shows_writeFrames points camera
  rw [named, ← ran] at shows
  have nothing : ¬w.startEpisode.Shows camera := by
    rintro (pending | pictures)
    · exact pending (none_pending camera)
    · exact pictures (pictures_of_empty (ready.noImages camera))
  refine shows.trans ?_
  simp only [nothing, false_or]
  rfl

end LerobotWriter

/-! ### The datasets that are kept apart -/

section Dataset
variable {flushing : FlushingConfig} {decode : Decoder} {perChunk : ℕ+} {index : Nat}
variable {episodes : List (List (AlignedFrame Value))}
open LerobotWriter

omit [Zero Value] in
theorem localWriter_ready :
    (localWriter flushing decode perChunk index : LerobotWriter Value).Ready where
  noFrames := rfl
  noImages _ := rfl
  stored := by
    intro camera path member
    cases member

omit [Zero Value] in
/-- The counts add up episode by episode, so they are the episodes' own exactly while
nothing has been counted. -/
theorem cumulative_own (own : cumulative total episodes = episodes.map List.length)
    (split : episodes = before ++ frames :: after) (some_ : after ≠ []) :
    total = 0 ∧ frames = [] := by
  subst split
  induction before generalizing total with
  | nil =>
    cases after with
    | nil => exact absurd rfl some_
    | cons next rest =>
      simp only [List.nil_append, cumulative, List.map_cons, List.cons.injEq] at own
      have zero : total = 0 := by omega
      have none_ : frames.length = 0 := by omega
      exact ⟨zero, List.length_eq_zero_iff.mp none_⟩
  | cons first rest ih =>
    simp only [List.cons_append, cumulative, List.map_cons, List.cons.injEq] at own
    have later := ih own.2
    exact ⟨by omega, later.2⟩

/-- A dataset that is kept apart has its frames in its last episode, under index 0. -/
theorem onlyLast_of_keptApart
    (apart : DatasetKeptApart (localWriter flushing decode perChunk index) episodes) :
    OnlyLastHasFrames index episodes := by
  obtain ⟨final, stats, ran, kept⟩ := apart
  have ready : (localWriter flushing decode perChunk index : LerobotWriter Value).Ready :=
    localWriter_ready
  intro before frames after split some_
  simp only [runDataset, bind, Except.bind] at ran
  cases first : (localWriter flushing decode perChunk index).runEpisodes episodes with
  | error e =>
    simp only [first] at ran
    cases ran
  | ok reached =>
    obtain ⟨w, counts⟩ := reached
    obtain ⟨readyEnd, cumulated, entries⟩ := ready.runEpisodes first
    obtain ⟨last, total, finalized, metadata, -⟩ := readyEnd.finalize
    simp only [first, finalized] at ran
    cases ran
    have own : cumulative 0 episodes = episodes.map List.length := cumulated.symm.trans kept.ownCounts
    have isLast : after = [] := by
      by_contra more
      exact some_ (cumulative_own own split more).2
    have listed : frames ∈ withFrames episodes := by
      refine List.mem_filter.mpr ⟨?_, by simpa using some_⟩
      rw [split]
      exact List.mem_append_right _ List.mem_cons_self
    refine ⟨isLast, ?_, ?_⟩
    · have indices := kept.entries
      rw [metadata, entries] at indices
      cases full : withFrames episodes with
      | nil =>
        rw [full] at listed
        cases listed
      | cons head tail =>
        rw [full] at indices
        have heads := congrArg List.head? indices
        simp only [localWriter, newLocal, setEpisodesPerChunk, setEpisodeIndex, List.map_nil,
          List.nil_append, List.map_cons, List.mapIdx_cons, List.head?_cons, Option.some.injEq,
          Prod.mk.injEq] at heads
        omega
    · obtain ⟨k, below, named⟩ := List.mem_iff_getElem.mp listed
      obtain ⟨rows, made, -⟩ := kept.parquet k frames (by rw [List.getElem?_eq_getElem below, named])
      obtain ⟨row, member, observed⟩ := (episodeRows_ok_iff _ _ _).mp ⟨rows, made⟩
      obtain ⟨frame, inside, rfl⟩ := List.mem_map.mp member
      exact ⟨frame, inside, (observationState_ne_none frame _).mp observed⟩

/-- Episodes without frames leave the writer as it is, but for the index. -/
theorem Ready.runEpisodes_blank {w : LerobotWriter Value} (ready : w.Ready)
    (blank : ∀ frames ∈ episodes, frames = []) :
    ∃ w' stats, w.runEpisodes episodes = .ok (w', stats) ∧
      (w' = w ∨ w' = w.setEpisodeIndex 0) := by
  induction episodes generalizing w with
  | nil => exact ⟨w, [], rfl, .inl rfl⟩
  | cons frames rest ih =>
    have none_ := blank frames List.mem_cons_self
    subst none_
    have started : w.startEpisode = w.setEpisodeIndex 0 := by
      simp [startEpisode, setEpisodeIndex, ready.noFrames]
    have first : w.runEpisode [] = .ok (w.setEpisodeIndex 0, ⟨w.totalFrames, 0⟩) := by
      simp only [LerobotWriter.runEpisode, List.foldl_nil, started]
      exact finishEpisode_blank ready.noFrames
    have ready' : (w.setEpisodeIndex 0).Ready := ⟨ready.noFrames, ready.noImages, ready.stored⟩
    obtain ⟨w', stats, ran, same⟩ := ih ready' fun other member =>
      blank other (List.mem_cons_of_mem _ member)
    refine ⟨w', ⟨w.totalFrames, 0⟩ :: stats, ?_, ?_⟩
    · simp only [LerobotWriter.runEpisodes, first, bind, Except.bind, ran]
    · exact .inr (same.elim id id)

theorem runEpisodes_append {w w₁ : LerobotWriter Value}
    (ran : w.runEpisodes before = .ok (w₁, earlier)) (after : List (List (AlignedFrame Value))) :
    w.runEpisodes (before ++ after) =
      (w₁.runEpisodes after).map fun reached => (reached.1, earlier ++ reached.2) := by
  induction before generalizing w earlier with
  | nil =>
    cases ran
    rw [List.nil_append]
    cases w₁.runEpisodes after <;> rfl
  | cons frames rest ih =>
    simp only [List.cons_append, LerobotWriter.runEpisodes, bind, Except.bind] at ran ⊢
    cases first : w.runEpisode frames with
    | error e =>
      simp only [first] at ran
      cases ran
    | ok reached =>
      obtain ⟨w₂, own⟩ := reached
      simp only [first] at ran
      cases later : w₂.runEpisodes rest with
      | error e =>
        simp only [later] at ran
        cases ran
      | ok more =>
        obtain ⟨w₃, others⟩ := more
        simp only [later] at ran
        cases ran
        simp only [ih later]
        cases w₁.runEpisodes after <;> rfl

/-- What episodes without frames have written. -/
theorem blank_no_files (blank : ∀ frames ∈ episodes, frames = [])
    (ran : (localWriter flushing decode perChunk index).runEpisodes episodes = .ok (w, stats)) :
    w.metadata = ⟨[], 0⟩ ∧ w.parquetFiles = .empty ∧ w.videoFiles = .empty ∧
      ∀ camera, w.flushed camera = [] := by
  obtain ⟨w', stats', ran', same⟩ := Ready.runEpisodes_blank localWriter_ready blank
  rw [ran] at ran'
  cases ran'
  rcases same with rfl | rfl <;> exact ⟨rfl, rfl, rfl, fun _ => rfl⟩

/-- No file is lost that was written before the last episode, when only it has frames. -/
theorem notOverwritten_of_blank {final : LerobotWriter Value}
    (blank : ∀ frames ∈ before, frames = [])
    (ran : (localWriter flushing decode perChunk index).runEpisodes before = .ok (w, earlier)) :
    (∀ path rows, w.parquetFiles.get path = some rows →
        final.parquetFiles.get path = some rows) ∧
      ∀ path video, w.videoFiles.get path = some video →
        final.videoFiles.get path = some video := by
  obtain ⟨-, parquet, videos, -⟩ := blank_no_files blank ran
  constructor
  · intro path rows found
    rw [parquet] at found
    cases found
  · intro path video found
    rw [videos] at found
    cases found

omit [Zero Value] in
theorem cumulative_blank (blank : ∀ frames ∈ episodes, frames = []) :
    cumulative 0 episodes = episodes.map List.length := by
  induction episodes with
  | nil => rfl
  | cons frames rest ih =>
    have none_ := blank frames List.mem_cons_self
    subst none_
    rw [cumulative, List.map_cons]
    exact congrArg _ (ih fun other member => blank other (List.mem_cons_of_mem _ member))

omit [Zero Value] in
theorem withFrames_blank (blank : ∀ frames ∈ episodes, frames = []) : withFrames episodes = [] := by
  rw [withFrames, List.filter_eq_nil_iff]
  intro frames member
  simp [blank frames member]

omit [Zero Value] in
theorem sum_lengths_blank (blank : ∀ frames ∈ episodes, frames = []) :
    (episodes.map List.length).sum = 0 := by
  rw [List.sum_eq_zero_iff]
  intro n member
  obtain ⟨frames, inside, rfl⟩ := List.mem_map.mp member
  rw [blank frames inside]
  rfl

/-- A dataset without frames. -/
theorem keptApart_of_blank (blank : ∀ frames ∈ episodes, frames = []) :
    DatasetKeptApart (localWriter flushing decode perChunk index) episodes := by
  have ready : (localWriter flushing decode perChunk index : LerobotWriter Value).Ready :=
    localWriter_ready
  obtain ⟨w, stats, ran, -⟩ := Ready.runEpisodes_blank ready blank
  obtain ⟨readyEnd, cumulated, entries⟩ := ready.runEpisodes ran
  obtain ⟨final, total, finalized, metadata, parquet, own, others⟩ := readyEnd.finalize
  have nothing := withFrames_blank blank
  have wEmpty := blank_no_files blank ran
  have noVideo : ∀ path, final.videoFiles.get path = none := by
    intro path
    by_cases named : ∃ camera, path = videoPath w.chunkIndex camera w.episodeIndex
    · obtain ⟨camera, rfl⟩ := named
      rw [own camera, if_pos (wEmpty.2.2.2 camera), wEmpty.2.2.1]
      rfl
    · rw [others path fun camera => fun same => named ⟨camera, same⟩, wEmpty.2.2.1]
      rfl
  refine ⟨final, stats, ?_, ?_⟩
  · simp only [runDataset, bind, Except.bind, ran, finalized]
  · refine ⟨?_, ?_, ?_, ?_, ?_, ?_, ?_, ?_⟩
    · exact cumulated.trans (cumulative_blank blank)
    · rw [metadata, wEmpty.1, nothing]
      rfl
    · rw [metadata, wEmpty.1, nothing]
      rfl
    · rw [metadata, wEmpty.1, sum_lengths_blank blank]
    · intro k frames listed
      simp [nothing] at listed
    · intro k frames listed
      simp [nothing] at listed
    · intro path some_
      simp [noVideo path] at some_
    · intro before after split _ w' earlier ran'
      refine notOverwritten_of_blank (fun frames member => ?_) ran'
      exact blank frames (split ▸ List.mem_append_left _ member)

omit [Zero Value] in
theorem cumulative_last {before : List (List (AlignedFrame Value))}
    (blank : ∀ frames ∈ before, frames = []) (frames : List (AlignedFrame Value)) :
    cumulative 0 (before ++ [frames]) = (before ++ [frames]).map List.length := by
  induction before with
  | nil => simp [cumulative]
  | cons first rest ih =>
    have none_ := blank first List.mem_cons_self
    subst none_
    rw [List.cons_append, cumulative, List.map_cons]
    exact congrArg _ (ih fun other member => blank other (List.mem_cons_of_mem _ member))

/-- An episode with an observation is finished. -/
theorem Ready.runEpisode_observed {w : LerobotWriter Value} (ready : w.Ready)
    (observed : ∃ frame ∈ frames, hasObservation frame = true) :
    ∃ rows, episodeRows (frames.map (.fromAlignedFrame · 0)) 0 (w.chunkOf 0) = .ok rows ∧
      w.runEpisode frames =
        .ok ((w.filled frames).finished rows, ⟨(w.filled frames).frameCount, 0⟩) := by
  obtain ⟨wrote, -, data, index⟩ := ready.filled frames
  obtain ⟨frame, member, has⟩ := observed
  have full : (w.filled frames).frameData ≠ [] := by
    rw [data, ne_eq, List.map_eq_nil_iff]
    exact List.ne_nil_of_mem member
  have chunk : (w.filled frames).chunkIndex = w.chunkOf 0 := by
    simp only [chunkIndex, chunkOf, index, wrote.episodesPerChunk]
    rfl
  obtain ⟨rows, made⟩ := (episodeRows_ok_iff (frames.map (.fromAlignedFrame · 0)) 0
    (w.chunkOf 0)).mpr ⟨_, List.mem_map_of_mem member, (observationState_ne_none frame 0).mpr has⟩
  refine ⟨rows, made, ?_⟩
  change (w.filled frames).finishEpisode = _
  rw [finishEpisode_rows full, data, index, chunk, made]
  rfl

/-- The videos at the end of a dataset whose last episode is its first with frames: one
for each camera with a picture, by the finish or by the merge. -/
theorem finished_videos {start final : LerobotWriter Value} (ready : start.Ready)
    (noneYet : start.videoFiles = .empty) (nonePending : ∀ camera, start.flushed camera = [])
    (rows : List (ParquetRow Value)) (frames : List (AlignedFrame Value))
    (finalized : ((start.filled frames).finished rows).finalize = .ok (final, total)) :
    final.metadata = ((start.filled frames).finished rows).metadata ∧
      final.parquetFiles = ((start.filled frames).finished rows).parquetFiles ∧
      (∀ camera, (final.videoFiles.get (videoPath (start.chunkOf 0) camera 0)).isSome ↔
        HasPicture start.decode frames camera) ∧
      ∀ path, (∀ camera, path ≠ videoPath (start.chunkOf 0) camera 0) →
        final.videoFiles.get path = none := by
  obtain ⟨wrote, stored, -, index⟩ := ready.filled frames
  have chunk : (start.filled frames).chunkIndex = start.chunkOf 0 := by
    simp only [chunkIndex, chunkOf, index, wrote.episodesPerChunk]
    rfl
  have readyEnd : ((start.filled frames).finished rows).Ready :=
    ⟨rfl, fun camera => Kv.bucket_drained _ camera, stored.finished rows⟩
  obtain ⟨final', total', finalized', metadata, parquet, own, others⟩ := readyEnd.finalize
  rw [finalized] at finalized'
  cases finalized'
  have endIndex : ((start.filled frames).finished rows).episodeIndex = 0 := index
  have endChunk : ((start.filled frames).finished rows).chunkIndex = start.chunkOf 0 := chunk
  have endFlushed : ∀ camera, ((start.filled frames).finished rows).flushed camera =
      (start.filled frames).flushed camera := fun _ => rfl
  have endVideos : ((start.filled frames).finished rows).videoFiles =
      (start.filled frames).encodeVideos.videoFiles := rfl
  have blank : (start.filled frames).videoFiles = .empty := wrote.videoFiles.trans noneYet
  rw [endIndex, endChunk] at own others
  refine ⟨metadata, parquet, ?_, ?_⟩
  · intro camera
    have encoded := (start.filled frames).encodeVideos_file camera
    rw [index, chunk] at encoded
    rw [← ready.shows_filled nonePending frames camera, own camera, endFlushed, endVideos, encoded,
      blank, Shows]
    by_cases pending : (start.filled frames).flushed camera = []
    · by_cases pictures : (start.filled frames).pictures camera = []
      · simp [pending, pictures]
      · simp [pending, pictures]
    · simp [pending]
  · intro path elsewhere
    have encoded : (start.filled frames).encodeVideos.videoFiles.get path =
        (start.filled frames).videoFiles.get path := by
      apply encodeVideos_others
      rw [index, chunk]
      exact elsewhere
    rw [others path elsewhere, endVideos, encoded, blank]
    rfl

/-- A dataset with frames in its last episode only, from index 0 on. -/
theorem keptApart_of_last {before : List (List (AlignedFrame Value))}
    {frames : List (AlignedFrame Value)} (blank : ∀ frames ∈ before, frames = [])
    (some_ : frames ≠ []) (observed : ∃ frame ∈ frames, hasObservation frame = true) :
    DatasetKeptApart (localWriter flushing decode perChunk 0) (before ++ [frames]) := by
  let start : LerobotWriter Value := localWriter flushing decode perChunk 0
  have ready : start.Ready := localWriter_ready
  -- the episodes without frames change nothing, the index is 0 already
  obtain ⟨earlier, ran⟩ : ∃ earlier, start.runEpisodes before = .ok (start, earlier) := by
    obtain ⟨w, stats, ran, same⟩ := Ready.runEpisodes_blank ready blank
    rcases same with rfl | rfl <;> exact ⟨stats, ran⟩
  obtain ⟨rows, made, last⟩ := Ready.runEpisode_observed ready observed
  have ranAll : start.runEpisodes (before ++ [frames]) = .ok ((start.filled frames).finished rows,
      earlier ++ [⟨(start.filled frames).frameCount, 0⟩]) := by
    rw [runEpisodes_append ran]
    simp only [LerobotWriter.runEpisodes, last, bind, Except.bind]
    rfl
  obtain ⟨readyEnd, cumulated, entries⟩ := ready.runEpisodes ranAll
  obtain ⟨final, total, finalized, -⟩ := readyEnd.finalize
  obtain ⟨metadata, parquet, video, elsewhere⟩ :=
    finished_videos ready rfl (fun _ => rfl) rows frames finalized
  obtain ⟨wrote, -, data, index⟩ := ready.filled frames
  have only : withFrames (before ++ [frames]) = [frames] := by
    rw [withFrames, List.filter_append, ← withFrames, withFrames_blank blank]
    simp [some_]
  have first : ∀ k frames', (withFrames (before ++ [frames]))[k]? = some frames' →
      k = 0 ∧ frames' = frames := by
    intro k frames' listed
    rw [only] at listed
    cases k with
    | zero => exact ⟨rfl, (Option.some.inj listed).symm⟩
    | succ k => simp at listed
  refine ⟨final, earlier ++ [⟨(start.filled frames).frameCount, 0⟩], ?_, ?_⟩
  · simp only [runDataset, bind, Except.bind]
    rw [ranAll]
    simp only [finalized]
  · refine ⟨cumulated.trans (cumulative_last blank frames), ?_, ?_, ?_, ?_, ?_, ?_, ?_⟩
    · rw [metadata, entries, only]
      rfl
    · rw [metadata, only]
      have lengths := congrArg List.length entries
      rw [only] at lengths
      have none_ : start.metadata.episodes = [] := rfl
      simpa [none_] using lengths
    · have count : (start.filled frames).frameData.length = frames.length := by simp [data]
      rw [metadata, List.map_append, List.sum_append, sum_lengths_blank blank]
      simp only [finished, MetadataCollector.addEpisode, count, wrote.metadata, List.map_cons,
        List.map_nil, List.sum_singleton]
      rfl
    · intro k frames' listed
      obtain ⟨rfl, rfl⟩ := first k frames' listed
      refine ⟨rows, made, ?_⟩
      have chunk : (start.filled frames').chunkIndex = start.chunkOf 0 := by
        simp only [chunkIndex, chunkOf, index, wrote.episodesPerChunk]
        rfl
      rw [parquet]
      simp only [finished, index, chunk]
      exact Kv.get_put_self _ _ _
    · intro k frames' listed
      obtain ⟨rfl, rfl⟩ := first k frames' listed
      intro _ camera has
      exact (video camera).mpr has
    · intro path found
      by_cases named : ∃ camera, path = videoPath (start.chunkOf 0) camera 0
      · obtain ⟨camera, rfl⟩ := named
        exact ⟨0, frames, camera, by rw [only]; rfl, (video camera).mp found, rfl⟩
      · rw [elsewhere path fun camera same => named ⟨camera, same⟩] at found
        cases found
    · intro before' after' split more w' earlier' ran'
      refine notOverwritten_of_blank (fun other member => blank other ?_) ran'
      have whole : before' <+: before ++ [frames] := ⟨after', split.symm⟩
      rcases List.prefix_concat_iff.mp whole with same | inside
      · rw [same] at split
        exact absurd (by simpa using split) more
      · exact inside.subset member

/-- For every writer, every first index and every sequence of episodes: the episodes of
the dataset are kept apart exactly when only the last one has frames, its index is to be
0, and one of its frames has an observation. -/
theorem kept_apart_iff_only_last (flushing : FlushingConfig) (decode : Decoder) (perChunk : ℕ+)
    (index : Nat) (episodes : List (List (AlignedFrame Value))) :
    DatasetKeptApart (localWriter flushing decode perChunk index) episodes ↔
      OnlyLastHasFrames index episodes := by
  constructor
  · exact onlyLast_of_keptApart
  · intro only
    by_cases blank : ∀ frames ∈ episodes, frames = []
    · exact keptApart_of_blank blank
    · push Not at blank
      obtain ⟨frames, member, some_⟩ := blank
      obtain ⟨before, after, split⟩ := List.append_of_mem member
      obtain ⟨rfl, rfl, observed⟩ := only before frames after split some_
      subst split
      refine keptApart_of_last ?_ some_ observed
      intro other inside
      by_contra full
      obtain ⟨first, rest, rfl⟩ := List.append_of_mem inside
      have last := (only first other (rest ++ [frames]) (by simp) full).1
      simp at last

/-- A frame with a state and no image. -/
def stateFrame (index : Nat) : AlignedFrame Nat :=
  { AlignedFrame.new index 0 with states := Kv.empty.put "observation.state" [index] }

/-- A writer that never flushes. -/
def plainWriter : LerobotWriter Nat := localWriter ⟨0, 0⟩ (fun _ => none) ⟨500, by decide⟩ 0

/-- The second episode has the index of the first, overwrites its file, and counts the
frames of both. -/
theorem second_episode_overwrites_first :
    (plainWriter.runDataset [[stateFrame 0], [stateFrame 1]]).toOption.map (fun run =>
        (run.1.metadata.episodes.map (·.episodeIndex), run.2.map (·.frames),
          run.1.parquetFiles.entries.map fun file => file.2.map (·.frameIndex))) =
      some ([0, 0], [1, 2], [[1]]) ∧
    ¬DatasetKeptApart plainWriter [[stateFrame 0], [stateFrame 1]] := by
  refine ⟨by decide +kernel, ?_⟩
  intro apart
  have only := onlyLast_of_keptApart apart [] [stateFrame 0] [[stateFrame 1]] rfl (by simp)
  cases only.1

end Dataset

end Roboflow.Lerobot
