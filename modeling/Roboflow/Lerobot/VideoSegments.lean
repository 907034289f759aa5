import Roboflow.Lerobot.EpisodeFiles
import Roboflow.Lerobot.RecordedPaths

/-! Images on their way to the videos. Images leave the buffers as flushed segments,
which are joined at the end under the index that is then current, or as the tail that a
finish encodes under the index of its episode. For one camera this is a map from
indices to videos, computed here from what each episode flushed and kept; the writer's
files are that map. -/
namespace Roboflow.Lerobot
open Library
open Roboflow.Alignment (AlignedFrame ImageData)

/-! ### One camera -/

/-- What one episode recorded of a camera: the pictures flushed before its end, and
those left in the buffer. -/
structure Recorded (α : Type) where
  index : Nat
  flushed : List α
  tail : List α

namespace Recorded

variable {α : Type}

def all (e : Recorded α) : List α := e.flushed ++ e.tail

/-- The videos encoded at the ends of the episodes. -/
def encoded (finished : List (Recorded α)) (index : Nat) : Option (List α) :=
  ((finished.filter fun e => e.index = index ∧ ¬e.tail.isEmpty).getLast?).map tail

/-- The segments that wait for the end, where the last episode is flushed whole. -/
def segments (finished : List (Recorded α)) (last : Recorded α) : List α :=
  finished.flatMap flushed ++ last.all

/-- The videos after the merge. -/
def videos (finished : List (Recorded α)) (last : Recorded α) (index : Nat) : Option (List α) :=
  if (segments finished last).isEmpty then encoded finished index
  else if index = last.index then some (segments finished last)
  else encoded finished index

/-- Episodes that recorded something have an index of their own. -/
def Apart (episodes : List (Recorded α)) : Prop :=
  episodes.Pairwise fun e f => e.index = f.index → e.all = [] ∧ f.all = []

/-- Every episode's video is what it recorded. -/
def Complete (finished : List (Recorded α)) (last : Recorded α) (episodes : List (Recorded α)) :
    Prop :=
  ∀ e ∈ episodes, videos finished last e.index = if e.all.isEmpty then none else some e.all

/-- An episode that flushed before its end left nothing in the buffer, has the index of
the merge, and is the only one with segments. -/
def FlushedAlone (finished : List (Recorded α)) (last : Recorded α) : Prop :=
  ∀ before e after, finished = before ++ e :: after → e.flushed ≠ [] →
    e.tail = [] ∧ e.index = last.index ∧ (∀ f ∈ before ++ after, f.flushed = []) ∧ last.all = []

theorem Apart.alone (apart : Apart (before ++ e :: after)) (some_ : e.all ≠ [])
    (member : f ∈ before ++ after) : f.index ≠ e.index := by
  intro same
  obtain ⟨-, later, across⟩ := List.pairwise_append.mp apart
  rcases List.mem_append.mp member with early | late
  · exact some_ (across f early e List.mem_cons_self same).2
  · exact some_ ((List.pairwise_cons.mp later).1 f late same.symm).1

theorem encoded_eq_none {finished : List (Recorded α)} {i : Nat}
    (none_ : ∀ e ∈ finished, e.index = i → e.tail = []) : encoded finished i = none := by
  have nothing : finished.filter (fun e => e.index = i ∧ ¬e.tail.isEmpty) = [] := by
    rw [List.filter_eq_nil_iff]
    intro e member
    simp only [decide_eq_true_eq, not_and, not_not, List.isEmpty_iff]
    exact none_ e member
  rw [encoded, nothing]
  rfl

theorem encoded_alone (apart : Apart (before ++ e :: after)) (some_ : e.all ≠ []) :
    encoded (before ++ e :: after) e.index = if e.tail.isEmpty then none else some e.tail := by
  have others : ∀ part, part ⊆ before ++ after →
      part.filter (fun f => f.index = e.index ∧ ¬f.tail.isEmpty) = [] := by
    intro part inside
    rw [List.filter_eq_nil_iff]
    intro f member
    simp [apart.alone some_ (inside member)]
  rw [encoded, List.filter_append, List.filter_cons, others before (List.subset_append_left _ _),
    others after (List.subset_append_right _ _)]
  by_cases none_ : e.tail.isEmpty <;> simp [none_]

theorem segments_split (before : List (Recorded α)) (e : Recorded α) (after : List (Recorded α))
    (last : Recorded α) (alone : ∀ f ∈ before ++ after, f.flushed = []) (none_ : last.all = []) :
    segments (before ++ e :: after) last = e.flushed := by
  have nothing : ∀ part, part ⊆ before ++ after → part.flatMap flushed = [] := by
    intro part inside
    rw [List.flatMap_eq_nil_iff]
    exact fun f member => alone f (inside member)
  rw [segments, List.flatMap_append, List.flatMap_cons, nothing before (List.subset_append_left _ _),
    nothing after (List.subset_append_right _ _), none_]
  simp

/-- The episodes, the last one among them if it has frames. -/
def episodes (finished : List (Recorded α)) (last : Recorded α) (counts : Bool) :
    List (Recorded α) :=
  finished ++ if counts then [last] else []

section
variable {finished : List (Recorded α)} {last : Recorded α} {counts : Bool}

theorem Apart.fromLast (apart : Apart (episodes finished last counts))
    (idle : counts = false → last.all = []) (some_ : last.all ≠ []) (member : f ∈ finished) :
    f.index ≠ last.index := by
  cases counts with
  | false => exact absurd (idle rfl) some_
  | true =>
    intro same
    exact some_ ((List.pairwise_append.mp apart).2.2 f member last (by simp) same).2

theorem Apart.amongFinished (apart : Apart (episodes finished last counts)) : Apart finished :=
  (List.pairwise_append.mp apart).1

/-- An index of an episode that recorded nothing has no video. -/
theorem Apart.encoded_blank (apart : Apart finished) (member : e ∈ finished) (blank : e.all = []) :
    encoded finished e.index = none := by
  apply encoded_eq_none
  intro f listed same
  by_contra some_
  have whole : f.all ≠ [] := by simp [all, some_]
  obtain ⟨before, after, split⟩ := List.append_of_mem listed
  subst split
  refine apart.alone whole ?_ same.symm
  rcases List.mem_append.mp member with early | late
  · exact List.mem_append_left _ early
  · rcases List.mem_cons.mp late with rfl | later
    · exact absurd blank whole
    · exact List.mem_append_right _ later

theorem exists_flushed (pending : segments finished last ≠ []) (none_ : last.all = []) :
    ∃ e ∈ finished, e.flushed ≠ [] := by
  by_contra nothing
  push Not at nothing
  have blank : finished.flatMap flushed = [] := List.flatMap_eq_nil_iff.mpr nothing
  exact pending (by rw [segments, blank, none_, List.append_nil])

/-- An episode with a segment shares its index with the merge, which writes what the
episode recorded. -/
theorem merged_of_complete (apart : Apart (episodes finished last counts))
    (complete : Complete finished last (episodes finished last counts))
    (split : finished = before ++ e :: after) (some_ : e.flushed ≠ []) :
    e.index = last.index ∧ segments finished last = e.all := by
  have whole : e.all ≠ [] := by simp [all, some_]
  have pending : (segments finished last).isEmpty = false := by
    rw [split]
    simp [segments, some_]
  have member : e ∈ finished := by rw [split]; simp
  have shown : videos finished last e.index = some e.all := by
    rw [complete e (List.mem_append_left _ member)]
    exact if_neg (by simpa using whole)
  rw [videos, if_neg (by simp [pending])] at shown
  by_cases here : e.index = last.index
  · rw [if_pos here] at shown
    exact ⟨here, Option.some.inj shown⟩
  · rw [if_neg here, split, encoded_alone (split ▸ apart.amongFinished) whole] at shown
    by_cases none_ : e.tail.isEmpty
    · simp [none_] at shown
    · simp only [none_, Bool.false_eq_true, if_false, Option.some.injEq, all] at shown
      exact absurd (List.self_eq_append_left.mp shown) some_

theorem flushedAlone_of_complete (idle : counts = false → last.all = [])
    (apart : Apart (episodes finished last counts))
    (complete : Complete finished last (episodes finished last counts)) :
    FlushedAlone finished last := by
  intro before e after split some_
  obtain ⟨here, shown⟩ := merged_of_complete apart complete split some_
  have whole : e.all ≠ [] := by simp [all, some_]
  have member : e ∈ finished := by rw [split]; simp
  have alone : ∀ f ∈ before ++ after, f.flushed = [] := by
    intro f inside
    by_contra more
    have listed : f ∈ finished := by
      rw [split]
      rcases List.mem_append.mp inside with early | late
      · exact List.mem_append_left _ early
      · exact List.mem_append_right _ (List.mem_cons_of_mem _ late)
    obtain ⟨first, rest, split'⟩ := List.append_of_mem listed
    have there := (merged_of_complete apart complete split' more).1
    exact Apart.alone (split ▸ apart.amongFinished) whole inside (there.trans here.symm)
  have none_ : last.all = [] := by
    by_contra more
    exact apart.fromLast idle more member here
  refine ⟨?_, here, alone, none_⟩
  rw [split, segments_split before e after last alone none_, all] at shown
  exact List.self_eq_append_right.mp shown

/-- Where segments are written, only their own episode has the index. -/
theorem FlushedAlone.elsewhere (alone : FlushedAlone finished last)
    (idle : counts = false → last.all = []) (apart : Apart (episodes finished last counts))
    (member : e ∈ finished) (none_ : e.flushed = []) (pending : segments finished last ≠ []) :
    e.index ≠ last.index := by
  by_cases more : last.all = []
  · obtain ⟨f, listed, some_⟩ := exists_flushed pending more
    obtain ⟨before, after, split⟩ := List.append_of_mem listed
    have there := (alone before f after split some_).2.1
    have whole : f.all ≠ [] := by simp [all, some_]
    have other : e ∈ before ++ after := by
      rw [split] at member
      rcases List.mem_append.mp member with early | late
      · exact List.mem_append_left _ early
      · rcases List.mem_cons.mp late with rfl | later
        · exact absurd none_ some_
        · exact List.mem_append_right _ later
    rw [← there]
    exact Apart.alone (split ▸ apart.amongFinished) whole other
  · exact apart.fromLast idle more member

theorem complete_of_flushedAlone (idle : counts = false → last.all = [])
    (apart : Apart (episodes finished last counts)) (alone : FlushedAlone finished last) :
    Complete finished last (episodes finished last counts) := by
  intro e member
  rcases List.mem_append.mp member with inside | isLast
  · obtain ⟨before, after, split⟩ := List.append_of_mem inside
    by_cases none_ : e.flushed = []
    · have kept : videos finished last e.index = encoded finished e.index := by
        unfold videos
        by_cases pending : segments finished last = []
        · exact if_pos (by simp [pending])
        · rw [if_neg (by simpa using pending)]
          exact if_neg (alone.elsewhere idle apart inside none_ pending)
      rw [kept]
      by_cases blank : e.all = []
      · rw [apart.amongFinished.encoded_blank inside blank, if_pos (by simp [blank])]
      · have same : e.all = e.tail := by rw [all, none_, List.nil_append]
        rw [split, encoded_alone (split ▸ apart.amongFinished) blank, same]
    · obtain ⟨tail, here, others, nothing⟩ := alone before e after split none_
      have own : segments finished last = e.all := by
        rw [split, segments_split before e after last others nothing, all, tail, List.append_nil]
      have whole : ¬e.all.isEmpty := by simp [all, none_]
      rw [videos, own, if_neg whole, if_pos here, if_neg whole]
  · cases counts with
    | false => simp at isLast
    | true =>
      have here : e = last := by simpa using isLast
      subst here
      have across : ∀ f ∈ finished, f.index = e.index → f.all = [] := fun f listed same =>
        ((List.pairwise_append.mp apart).2.2 f listed e (by simp) same).1
      have unflushed : ∀ f ∈ finished, f.flushed = [] := by
        intro f listed
        by_contra some_
        obtain ⟨before, after, split⟩ := List.append_of_mem listed
        have blank := across f listed (alone before f after split some_).2.1
        simp [all, some_] at blank
      have own : segments finished e = e.all := by
        rw [segments, List.flatMap_eq_nil_iff.mpr unflushed, List.nil_append]
      unfold videos
      rw [own]
      by_cases blank : e.all.isEmpty
      · rw [if_pos blank, if_pos blank]
        apply encoded_eq_none
        intro f listed same
        have nothing := across f listed same
        rw [all, List.append_eq_nil_iff] at nothing
        exact nothing.2
      · rw [if_neg blank, if_neg blank, if_pos rfl]

end

theorem encoded_concat (done : List (Recorded α)) (e : Recorded α) (i : Nat) :
    encoded (done ++ [e]) i =
      if i = e.index ∧ ¬e.tail.isEmpty then some e.tail else encoded done i := by
  rw [encoded, List.filter_append]
  by_cases own : i = e.index ∧ ¬e.tail.isEmpty
  · rw [if_pos own, List.filter_cons, if_pos (by simp [own])]
    simp
  · have other : ¬(e.index = i ∧ ¬e.tail.isEmpty) := fun both => own ⟨both.1.symm, both.2⟩
    rw [if_neg own, List.filter_cons, if_neg (by simpa using other)]
    simp [encoded]

end Recorded

/-! ### The calls -/

/-- What sets the index an episode is written under. -/
inductive EpisodeStart where
  | keep
  | startEpisode
  | setIndex (index : Nat)

/-- The index, where the finish before has emptied the frames. -/
def EpisodeStart.next (index : Nat) : EpisodeStart → Nat
  | .keep => index
  | .startEpisode => 0
  | .setIndex own => own

/-- An episode up to its end: its frames with the decisions to flush. -/
structure EpisodeCalls (Value : Type) where
  start : EpisodeStart
  frames : List (AlignedFrame Value × Bool)

variable {Value : Type}

namespace LerobotWriter

def starting (w : LerobotWriter Value) : EpisodeStart → LerobotWriter Value
  | .keep => w
  | .startEpisode => w.startEpisode
  | .setIndex index => w.setEpisodeIndex index

/-- The episodes that are finished. -/
def runCalls [Zero Value] (w : LerobotWriter Value) :
    List (EpisodeCalls Value) → Except String (LerobotWriter Value)
  | [] => .ok w
  | calls :: rest => do
    let (w, _) ← ((w.starting calls.start).writeFrames calls.frames).finishEpisode
    w.runCalls rest

/-- The finished episodes, the frames after the last finish, and `finalize`. -/
def runVideos [Zero Value] (w : LerobotWriter Value) (finished : List (EpisodeCalls Value))
    (last : EpisodeCalls Value) : Except String (LerobotWriter Value) := do
  let w ← w.runCalls finished
  let (w, _) ← ((w.starting last.start).writeFrames last.frames).finalize
  .ok w

end LerobotWriter

/-- Frames written under an index. -/
abbrev Indexed (Value : Type) := Nat × List (AlignedFrame Value × Bool)

def indexAfter (index : Nat) (calls : List (EpisodeCalls Value)) : Nat :=
  calls.foldl (fun index calls => calls.start.next index) index

/-- The episodes that have frames, with their indices. -/
def numbered : Nat → List (EpisodeCalls Value) → List (Indexed Value)
  | _, [] => []
  | index, calls :: rest =>
    let own := calls.start.next index
    if calls.frames.isEmpty then numbered own rest else (own, calls.frames) :: numbered own rest

def Indexed.images (e : Indexed Value) (camera : String) : List ImageData :=
  LerobotWriter.imagesOf camera (e.2.map Prod.fst)

/-- One frame's images of a camera, after those flushed and those kept before it. -/
def leave (camera : String) (held : List ImageData × List ImageData)
    (point : AlignedFrame Value × Bool) : List ImageData × List ImageData :=
  let kept := held.2 ++ (point.1.images.get camera).toList
  if point.2 then (held.1 ++ kept, []) else (held.1, kept)

def Indexed.recorded (camera : String) (e : Indexed Value) : Recorded ImageData :=
  let held := e.2.foldl (leave camera) ([], [])
  ⟨e.1, held.1, held.2⟩

/-! ### What the videos are to hold -/

/-- Episodes with images have an index of their own, and the video of each episode and
camera holds exactly the images the episode wrote for the camera. -/
structure VideosComplete (start : LerobotWriter Value) (episodes : List (Indexed Value))
    (final : LerobotWriter Value) : Prop where
  ownIndex : episodes.Pairwise fun e f => e.1 = f.1 →
    ∀ camera, e.images camera = [] ∧ f.images camera = []
  videos : ∀ e ∈ episodes, ∀ camera,
    final.videoFiles.get (videoPath (start.chunkOf e.1) camera e.1) =
      if (e.images camera).isEmpty then none
      else some ((e.images camera).filterMap (prepared start.decode))

/-- The images of the camera are decoded, to one size. -/
def Encodable (decode : Decoder) (images : List ImageData) : Prop :=
  ∃ width height, ∀ image ∈ images, ∃ frame, prepared decode image = some frame ∧
    frame.width = width ∧ frame.height = height

/-- The calls of an episode succeed: if it has frames it has an observation, and every
camera's images can be encoded. -/
structure Succeeds (decode : Decoder) (episode : EpisodeCalls Value) : Prop where
  observed : episode.frames ≠ [] → ∃ point ∈ episode.frames, hasObservation point.1 = true
  encodable : ∀ camera, Encodable decode
    (LerobotWriter.imagesOf camera (episode.frames.map Prod.fst))

/-- Episodes with images have an index of their own, and for every camera an episode
that was flushed before its finish has no image left in the buffer then, is finished
under the index the merge will use, and is the only one with flushed images. -/
structure FlushesStayHome (index : Nat) (finished : List (EpisodeCalls Value))
    (last : EpisodeCalls Value) : Prop where
  ownIndex : (numbered index (finished ++ [last])).Pairwise fun e f => e.1 = f.1 →
    ∀ camera, e.images camera = [] ∧ f.images camera = []
  alone : ∀ camera, Recorded.FlushedAlone
    ((numbered index finished).map (Indexed.recorded camera))
    (Indexed.recorded camera (last.start.next (indexAfter index finished), last.frames))

/-! ### The writer's files are the map -/

/-- Pictures of images. -/
def shown (decode : Decoder) (images : List ImageData) : List VideoFrame :=
  images.filterMap (prepared decode)

/-- A camera's pictures of an episode. -/
def Indexed.pictured (decode : Decoder) (camera : String) (e : Indexed Value) :
    Recorded VideoFrame :=
  let held := e.recorded camera
  ⟨e.1, shown decode held.flushed, shown decode held.tail⟩

theorem Encodable.mono (encodable : Encodable decode images) (fewer : images' ⊆ images) :
    Encodable decode images' := by
  obtain ⟨width, height, sized⟩ := encodable
  exact ⟨width, height, fun image member => sized image (fewer member)⟩

theorem Encodable.shown_eq_nil (encodable : Encodable decode images) :
    shown decode images = [] ↔ images = [] := by
  obtain ⟨width, height, sized⟩ := encodable
  rw [shown, List.filterMap_eq_nil_iff]
  constructor
  · intro none_
    rw [List.eq_nil_iff_forall_not_mem]
    intro image member
    obtain ⟨frame, ready, -⟩ := sized image member
    rw [none_ image member] at ready
    cases ready
  · rintro rfl image member
    cases member

/-- Images that can be encoded all are. -/
theorem Encodable.buildFrameBuffer (encodable : Encodable decode images) :
    (Lerobot.buildFrameBuffer decode images).1 = shown decode images := by
  obtain ⟨width, height, sized⟩ := encodable
  refine foldl_addVideoFrame_sized width height [] _ ?_
  intro frame member
  obtain ⟨image, inside, ready⟩ := List.mem_filterMap.mp (by simpa using member)
  obtain ⟨frame', ready', size⟩ := sized image inside
  rw [ready] at ready'
  cases ready'
  exact size

theorem leave_all (camera : String) (points : List (AlignedFrame Value × Bool))
    (held : List ImageData × List ImageData) :
    (points.foldl (leave camera) held).1 ++ (points.foldl (leave camera) held).2 =
      held.1 ++ held.2 ++ LerobotWriter.imagesOf camera (points.map Prod.fst) := by
  induction points generalizing held with
  | nil => simp [LerobotWriter.imagesOf]
  | cons point rest ih =>
    have more : LerobotWriter.imagesOf camera ((point :: rest).map Prod.fst) =
        (point.1.images.get camera).toList ++
          LerobotWriter.imagesOf camera (rest.map Prod.fst) := by
      simp only [LerobotWriter.imagesOf, List.map_cons, List.filterMap_cons]
      cases point.1.images.get camera <;> rfl
    rw [List.foldl_cons, ih, more]
    unfold leave
    cases point.2 <;> simp

theorem Indexed.recorded_all (camera : String) (e : Indexed Value) :
    (e.recorded camera).all = e.images camera := by
  have joined := leave_all camera e.2 ([], [])
  simp only [List.nil_append] at joined
  exact joined

namespace LerobotWriter

variable {w : LerobotWriter Value}

/-- The buffer and the segments of a camera after frames. -/
theorem writeFrames_leaves {images : List ImageData} (stored : w.Stored) (camera : String)
    (points : List (AlignedFrame Value × Bool)) (held : List ImageData × List ImageData)
    (buffer : w.imageBuffers.bucket camera = held.2)
    (segments : w.flushed camera = before ++ shown w.decode held.1)
    (encodable : Encodable w.decode images) (inBuffer : held.2 ⊆ images)
    (inFrames : imagesOf camera (points.map Prod.fst) ⊆ images) :
    (w.writeFrames points).imageBuffers.bucket camera = (points.foldl (leave camera) held).2 ∧
      (w.writeFrames points).flushed camera =
        before ++ shown w.decode (points.foldl (leave camera) held).1 := by
  induction points generalizing w held with
  | nil => exact ⟨buffer, segments⟩
  | cons point rest ih =>
    have own : (point.1.images.get camera).toList ⊆ images := by
      intro image member
      apply inFrames
      rw [imagesOf, List.mem_filterMap]
      exact ⟨point.1, by simp, Option.mem_toList.mp member⟩
    have later : imagesOf camera (rest.map Prod.fst) ⊆ images := by
      intro image member
      apply inFrames
      obtain ⟨frame, inside, read⟩ := List.mem_filterMap.mp member
      exact List.mem_filterMap.mpr ⟨frame, List.mem_cons_of_mem _ inside, read⟩
    have kept : held.2 ++ (point.1.images.get camera).toList ⊆ images :=
      List.append_subset.mpr ⟨inBuffer, own⟩
    have added : (w.addFrame point.1).imageBuffers.bucket camera =
        held.2 ++ (point.1.images.get camera).toList := by
      rw [addFrame_bucket, buffer]
    have same := (w.writeFrameAt_wrote point.1 point.2).decode
    have step := ih (w := w.writeFrameAt point.1 point.2) (stored.writeFrameAt point.1 point.2)
      (leave camera held point)
    rw [same] at step
    refine step ?_ ?_ encodable ?_ later
    · unfold leave
      cases flush : point.2 with
      | false => exact added
      | true => exact flushVideoSegment_bucket _ camera
    · unfold leave
      cases flush : point.2 with
      | false => exact segments
      | true =>
        have storedNow : (w.addFrame point.1).Stored := stored
        have pictures : (w.addFrame point.1).pictures camera =
            shown w.decode (held.2 ++ (point.1.images.get camera).toList) := by
          rw [LerobotWriter.pictures, added]
          exact (encodable.mono kept).buildFrameBuffer
        have flushedNow := storedNow.flushed_flush camera
        have unchanged : (w.addFrame point.1).flushed camera = w.flushed camera := rfl
        rw [pictures, unchanged, segments] at flushedNow
        simp only [if_true, shown, List.filterMap_append, List.append_assoc] at flushedNow ⊢
        exact flushedNow
    · unfold leave
      cases point.2 with
      | false => exact kept
      | true => exact List.nil_subset _

theorem flush_unless_empty (w : LerobotWriter Value) :
    (if w.buffersEmpty then w else w.flushVideoSegment) = w.flushVideoSegment := by
  unfold flushVideoSegment
  split <;> rfl

/-- The rows and the metadata entry of the frames after the last finish. -/
def lastRows [Zero Value] (w : LerobotWriter Value) : Except String (LerobotWriter Value) :=
  if w.frameData.isEmpty then .ok w
  else w.writeEpisodeParquet.bind fun w => .ok { w with
    metadata := w.metadata.addEpisode w.episodeIndex w.frameData.length []
    totalFrames := w.totalFrames + w.frameData.length }

theorem finalize_eq [Zero Value] (w : LerobotWriter Value) :
    w.finalize = w.flushVideoSegment.lastRows.bind fun w => w.mergePendingSegments.bind fun w =>
      .ok (w, ⟨w.totalFrames, w.imagesEncoded, w.totalFrames * 2⟩) := by
  simp only [finalize, flush_unless_empty, lastRows]
  cases w.flushVideoSegment.frameData.isEmpty with
  | true => rfl
  | false => cases w.flushVideoSegment.writeEpisodeParquet <;> rfl

/-- They touch neither segments nor videos. -/
theorem lastRows_ok [Zero Value]
    (observed : w.frameData ≠ [] → ∃ frame ∈ w.frameData, frame.observationState ≠ none) :
    ∃ rows metadata total, w.lastRows = .ok { w with
      parquetFiles := rows, metadata := metadata, totalFrames := total } := by
  unfold lastRows
  by_cases blank : w.frameData.isEmpty
  · exact ⟨_, _, _, if_pos blank⟩
  · obtain ⟨rows, made⟩ := (episodeRows_ok_iff w.frameData w.episodeIndex w.chunkIndex).mpr
      (observed (by simpa using blank))
    rw [if_neg blank]
    simp only [writeEpisodeParquet, blank, Bool.false_eq_true, if_false, made, bind, Except.bind]
    exact ⟨_, _, _, rfl⟩

/-- The end of a dataset: what is in the buffers follows what was flushed before. -/
theorem finalize_videos [Zero Value] (stored : w.Stored)
    (observed : w.frameData ≠ [] → ∃ frame ∈ w.frameData, frame.observationState ≠ none) :
    ∃ final stats, w.finalize = .ok (final, stats) ∧
      (∀ camera, final.videoFiles.get (videoPath w.chunkIndex camera w.episodeIndex) =
        if w.flushed camera ++ w.pictures camera = [] then
          w.videoFiles.get (videoPath w.chunkIndex camera w.episodeIndex)
        else some (w.flushed camera ++ w.pictures camera)) ∧
      ∀ path, (∀ camera, path ≠ videoPath w.chunkIndex camera w.episodeIndex) →
        final.videoFiles.get path = w.videoFiles.get path := by
  have keeps := flushVideoSegment_keeps w
  have data : w.flushVideoSegment.frameData = w.frameData := by simpa using keeps.frameData
  have chunk : w.flushVideoSegment.chunkIndex = w.chunkIndex := by
    simp only [chunkIndex, chunkOf, keeps.episodeIndex, keeps.episodesPerChunk]
  obtain ⟨rows, metadata, total, written⟩ := lastRows_ok (w := w.flushVideoSegment) (by
    rw [data]
    exact observed)
  have same : ∀ camera, w.flushVideoSegment.flushed camera =
      w.flushed camera ++ w.pictures camera := stored.flushed_flush
  have spec := mergePendingSegments_spec (show LerobotWriter.Stored { w.flushVideoSegment with
    parquetFiles := rows, metadata := metadata, totalFrames := total } from stored.flush)
  obtain ⟨final, merged, -, -, own, others⟩ := spec
  refine ⟨final, ⟨final.totalFrames, final.imagesEncoded, final.totalFrames * 2⟩, ?_, ?_, ?_⟩
  · rw [finalize_eq, written]
    simp only [Except.bind, merged]
  · intro camera
    rw [← same camera, ← chunk, ← keeps.episodeIndex, ← keeps.videoFiles]
    exact own camera
  · intro path elsewhere
    rw [← keeps.videoFiles]
    apply others path
    intro camera
    have other := elsewhere camera
    rw [← chunk, ← keeps.episodeIndex] at other
    exact other

/-- Between episodes: the segments and the videos are those of the finished episodes. -/
structure Tracks (start : LerobotWriter Value) (index : Nat) (done : List (Indexed Value))
    (w : LerobotWriter Value) : Prop where
  ready : w.Ready
  index : w.episodeIndex = index
  perChunk : w.episodesPerChunk = start.episodesPerChunk
  decode : w.decode = start.decode
  flushed : ∀ camera, w.flushed camera =
    (done.map (Indexed.pictured start.decode camera)).flatMap (·.flushed)
  videos : ∀ camera i, w.videoFiles.get (videoPath (start.chunkOf i) camera i) =
    Recorded.encoded (done.map (Indexed.pictured start.decode camera)) i

namespace Tracks

variable {start : LerobotWriter Value} {own : Nat} {done : List (Indexed Value)}

theorem starting (tracks : Tracks start own done w) (how : EpisodeStart) :
    Tracks start (how.next own) done (w.starting how) := by
  have ready : (w.starting how).Ready := by
    cases how <;> exact ⟨tracks.ready.noFrames, tracks.ready.noImages, tracks.ready.stored⟩
  cases how with
  | keep => exact tracks
  | startEpisode =>
    refine ⟨ready, ?_, tracks.perChunk, tracks.decode, tracks.flushed, tracks.videos⟩
    show w.frameData.length = 0
    rw [tracks.ready.noFrames]
    rfl
  | setIndex i => exact ⟨ready, rfl, tracks.perChunk, tracks.decode, tracks.flushed, tracks.videos⟩

theorem chunkIndex (tracks : Tracks start own done w) : w.chunkIndex = start.chunkOf own := by
  simp only [LerobotWriter.chunkIndex, chunkOf, tracks.index, tracks.perChunk]

/-- After the frames of an episode. -/
theorem written (tracks : Tracks start own done w) (points : List (AlignedFrame Value × Bool))
    (camera : String)
    (encodable : Encodable start.decode (imagesOf camera (points.map Prod.fst))) :
    (w.writeFrames points).pictures camera =
        (Indexed.pictured start.decode camera (own, points)).tail ∧
      (w.writeFrames points).flushed camera =
        (done.map (Indexed.pictured start.decode camera)).flatMap (·.flushed) ++
          (Indexed.pictured start.decode camera (own, points)).flushed := by
  have decode := (w.writeFrames_wrote points).decode.trans tracks.decode
  have leaves := writeFrames_leaves tracks.ready.stored camera points ([], [])
    (tracks.ready.noImages camera)
    (show w.flushed camera = w.flushed camera ++ shown w.decode [] by simp [shown])
    (tracks.decode ▸ encodable) (List.nil_subset _) (List.Subset.refl _)
  obtain ⟨buffer, segments⟩ := leaves
  have inside : (points.foldl (leave camera) ([], [])).2 ⊆ imagesOf camera (points.map Prod.fst) := by
    have joined := leave_all camera points ([], [])
    simp only [List.nil_append] at joined
    rw [← joined]
    exact List.subset_append_right _ _
  constructor
  · rw [LerobotWriter.pictures, buffer, decode]
    exact (encodable.mono inside).buildFrameBuffer
  · rw [segments, tracks.flushed, tracks.decode]
    rfl

/-- One episode and its finish. -/
theorem finish [Zero Value] (tracks : Tracks start own done w)
    (points : List (AlignedFrame Value × Bool))
    (observed : points ≠ [] → ∃ point ∈ points, hasObservation point.1 = true)
    (encodable : ∀ camera, Encodable start.decode (imagesOf camera (points.map Prod.fst))) :
    ∃ w' stats, (w.writeFrames points).finishEpisode = .ok (w', stats) ∧
      Tracks start own (if points.isEmpty then done else done ++ [(own, points)]) w' := by
  have wrote := w.writeFrames_wrote points
  have data : (w.writeFrames points).frameData =
      (points.map Prod.fst).map (.fromAlignedFrame · w.episodeIndex) := by
    rw [wrote.frameData, tracks.ready.noFrames, List.nil_append]
  by_cases blank : points = []
  · subst blank
    exact ⟨w, _, finishEpisode_blank tracks.ready.noFrames, tracks⟩
  · obtain ⟨point, member, has⟩ := observed blank
    have full : (w.writeFrames points).frameData ≠ [] := by
      rw [data, ne_eq, List.map_eq_nil_iff, List.map_eq_nil_iff]
      exact blank
    obtain ⟨rows, made⟩ := (episodeRows_ok_iff (w.writeFrames points).frameData
      (w.writeFrames points).episodeIndex (w.writeFrames points).chunkIndex).mpr
        ⟨.fromAlignedFrame point.1 w.episodeIndex, by
          rw [data]
          exact List.mem_map_of_mem (List.mem_map_of_mem member),
          (observationState_ne_none _ _).mpr has⟩
    refine ⟨(w.writeFrames points).finished rows,
      ⟨(w.writeFrames points).frameCount, (w.writeFrames points).episodeIndex⟩, ?_, ?_⟩
    · rw [finishEpisode_rows full, made]
      rfl
    · have index : (w.writeFrames points).episodeIndex = own :=
        wrote.episodeIndex.trans tracks.index
      have chunk : (w.writeFrames points).chunkIndex = start.chunkOf own := by
        simp only [LerobotWriter.chunkIndex, chunkOf, index, wrote.episodesPerChunk,
          tracks.perChunk]
      rw [if_neg (by simpa using blank)]
      refine ⟨⟨rfl, fun camera => Kv.bucket_drained _ camera,
        (tracks.ready.stored.writeFrames points).finished rows⟩, index,
        wrote.episodesPerChunk.trans tracks.perChunk, wrote.decode.trans tracks.decode, ?_, ?_⟩
      · intro camera
        have segments := (tracks.written points camera (encodable camera)).2
        have same : ((w.writeFrames points).finished rows).flushed camera =
            (w.writeFrames points).flushed camera := rfl
        rw [same, segments, List.map_append, List.flatMap_append]
        simp
      · intro camera i
        have pictures := (tracks.written points camera (encodable camera)).1
        rw [List.map_append, List.map_cons, List.map_nil, Recorded.encoded_concat,
          ← tracks.videos camera i]
        show (w.writeFrames points).encodeVideos.videoFiles.get _ = _
        by_cases here : i = own
        · subst here
          have encoded := (w.writeFrames points).encodeVideos_file camera
          rw [index, chunk, pictures, wrote.videoFiles] at encoded
          rw [encoded]
          by_cases none_ : (Indexed.pictured start.decode camera (i, points)).tail = []
          · simp [none_]
          · rw [if_neg none_, if_pos ⟨rfl, by simpa using none_⟩]
        · rw [if_neg (fun both => here both.1), ← wrote.videoFiles]
          apply encodeVideos_others
          intro other same
          rw [index] at same
          exact here (videoPath_injective same).1

/-- All the finished episodes. -/
theorem runCalls [Zero Value] (tracks : Tracks start own done w)
    (calls : List (EpisodeCalls Value))
    (succeeds : ∀ episode ∈ calls, Succeeds start.decode episode) :
    ∃ w', w.runCalls calls = .ok w' ∧
      Tracks start (indexAfter own calls) (done ++ numbered own calls) w' := by
  induction calls generalizing w own done with
  | nil =>
    refine ⟨w, rfl, ?_⟩
    rw [numbered, List.append_nil]
    exact tracks
  | cons episode rest ih =>
    have here := succeeds episode List.mem_cons_self
    have later : ∀ other ∈ rest, Succeeds start.decode other := fun other member =>
      succeeds other (List.mem_cons_of_mem _ member)
    obtain ⟨w₁, stats, finished, tracks₁⟩ :=
      (tracks.starting episode.start).finish episode.frames here.observed here.encodable
    obtain ⟨w₂, ran, tracks₂⟩ := ih tracks₁ later
    refine ⟨w₂, ?_, ?_⟩
    · simp only [LerobotWriter.runCalls, finished, bind, Except.bind]
      exact ran
    · have same : (if episode.frames.isEmpty then done
          else done ++ [(episode.start.next own, episode.frames)]) ++
            numbered (episode.start.next own) rest = done ++ numbered own (episode :: rest) := by
        rw [numbered]
        split <;> simp
      rw [same] at tracks₂
      exact tracks₂

/-- The frames after the last finish, and the end of the dataset. -/
theorem finalize [Zero Value] (tracks : Tracks start own done w)
    (points : List (AlignedFrame Value × Bool))
    (observed : points ≠ [] → ∃ point ∈ points, hasObservation point.1 = true)
    (encodable : ∀ camera, Encodable start.decode (imagesOf camera (points.map Prod.fst))) :
    ∃ final stats, (w.writeFrames points).finalize = .ok (final, stats) ∧
      ∀ camera i, final.videoFiles.get (videoPath (start.chunkOf i) camera i) =
        Recorded.videos (done.map (Indexed.pictured start.decode camera))
          (Indexed.pictured start.decode camera (own, points)) i := by
  have wrote := w.writeFrames_wrote points
  have index : (w.writeFrames points).episodeIndex = own := wrote.episodeIndex.trans tracks.index
  have chunk : (w.writeFrames points).chunkIndex = start.chunkOf own := by
    simp only [LerobotWriter.chunkIndex, chunkOf, index, wrote.episodesPerChunk, tracks.perChunk]
  have rows : (w.writeFrames points).frameData ≠ [] →
      ∃ frame ∈ (w.writeFrames points).frameData, frame.observationState ≠ none := by
    have data : (w.writeFrames points).frameData =
        (points.map Prod.fst).map (.fromAlignedFrame · w.episodeIndex) := by
      rw [wrote.frameData, tracks.ready.noFrames, List.nil_append]
    rw [data]
    intro some_
    obtain ⟨point, member, has⟩ := observed (by simpa using some_)
    exact ⟨_, List.mem_map_of_mem (List.mem_map_of_mem member),
      (observationState_ne_none _ _).mpr has⟩
  obtain ⟨final, stats, ran, own', others⟩ :=
    finalize_videos (tracks.ready.stored.writeFrames points) rows
  refine ⟨final, stats, ran, ?_⟩
  intro camera i
  obtain ⟨pictures, flushed⟩ := tracks.written points camera (encodable camera)
  have segments : (w.writeFrames points).flushed camera ++ (w.writeFrames points).pictures camera =
      Recorded.segments (done.map (Indexed.pictured start.decode camera))
        (Indexed.pictured start.decode camera (own, points)) := by
    rw [pictures, flushed, List.append_assoc]
    rfl
  have same : (Indexed.pictured start.decode camera (own, points)).index = own := rfl
  rw [Recorded.videos, same, ← tracks.videos camera i]
  by_cases here : i = own
  · subst here
    have written := own' camera
    rw [index, chunk, segments, wrote.videoFiles] at written
    rw [written]
    by_cases none_ : Recorded.segments (done.map (Indexed.pictured start.decode camera))
        (Indexed.pictured start.decode camera (i, points)) = []
    · simp [none_]
    · rw [if_neg none_, if_neg (by simpa using none_), if_pos rfl]
  · have kept := others (videoPath (start.chunkOf i) camera i) (by
      intro other same
      rw [index] at same
      exact here (videoPath_injective same).1)
    rw [kept, wrote.videoFiles, if_neg here, ite_self]

end Tracks

end LerobotWriter

/-! ### Images and pictures -/

theorem Recorded.flushedAlone_map {xs : List (Recorded α)} {last : Recorded α}
    (g : Recorded α → Recorded β) (index : ∀ e, (g e).index = e.index)
    (flushed : ∀ e ∈ xs, (g e).flushed = [] ↔ e.flushed = [])
    (tail : ∀ e ∈ xs, (g e).tail = [] ↔ e.tail = []) (all : (g last).all = [] ↔ last.all = []) :
    FlushedAlone (xs.map g) (g last) ↔ FlushedAlone xs last := by
  constructor
  · intro alone before e after split some_
    have member : ∀ f ∈ before ++ e :: after, f ∈ xs := fun f inside => split ▸ inside
    have here := member e (by simp)
    obtain ⟨tail', index', others, nothing⟩ := alone (before.map g) (g e) (after.map g)
      (by rw [split, List.map_append, List.map_cons]) fun none_ => some_ ((flushed e here).mp none_)
    refine ⟨(tail e here).mp tail', by rwa [index, index] at index', ?_, all.mp nothing⟩
    intro f inside
    have listed : f ∈ xs := by
      apply member
      rcases List.mem_append.mp inside with early | late
      · exact List.mem_append_left _ early
      · exact List.mem_append_right _ (List.mem_cons_of_mem _ late)
    apply (flushed f listed).mp
    apply others
    rw [← List.map_append]
    exact List.mem_map_of_mem inside
  · intro alone before' e' after' split some_
    obtain ⟨before, rest, split₁, rfl, cons⟩ := List.map_eq_append_iff.mp split
    obtain ⟨e, after, rfl, rfl, rfl⟩ := List.map_eq_cons_iff.mp cons
    have member : ∀ f ∈ before ++ e :: after, f ∈ xs := fun f inside => split₁ ▸ inside
    have here := member e (by simp)
    obtain ⟨tail', index', others, nothing⟩ := alone before e after split₁
      fun none_ => some_ ((flushed e here).mpr none_)
    refine ⟨(tail e here).mpr tail', by rwa [index, index], ?_, all.mpr nothing⟩
    intro f' inside
    rw [← List.map_append] at inside
    obtain ⟨f, listed, rfl⟩ := List.mem_map.mp inside
    have listed' : f ∈ xs := by
      apply member
      rcases List.mem_append.mp listed with early | late
      · exact List.mem_append_left _ early
      · exact List.mem_append_right _ (List.mem_cons_of_mem _ late)
    exact (flushed f listed').mpr (others f listed)

theorem numbered_concat (index : Nat) (finished : List (EpisodeCalls Value))
    (last : EpisodeCalls Value) :
    numbered index (finished ++ [last]) = numbered index finished ++
      if !last.frames.isEmpty then [(last.start.next (indexAfter index finished), last.frames)]
      else [] := by
  induction finished generalizing index with
  | nil =>
    simp only [List.nil_append, numbered, indexAfter, List.foldl_nil]
    cases last.frames.isEmpty <;> rfl
  | cons episode rest ih =>
    simp only [List.cons_append, numbered, ih]
    split <;> rfl

/-- A numbered episode is one of the calls. -/
theorem exists_call {calls : List (EpisodeCalls Value)} {e : Indexed Value} {index : Nat}
    (member : e ∈ numbered index calls) : ∃ episode ∈ calls, episode.frames = e.2 := by
  induction calls generalizing index with
  | nil => cases member
  | cons episode rest ih =>
    simp only [numbered] at member
    split at member
    · obtain ⟨other, inside, same⟩ := ih member
      exact ⟨other, List.mem_cons_of_mem _ inside, same⟩
    · rcases List.mem_cons.mp member with rfl | later
      · exact ⟨episode, List.mem_cons_self, rfl⟩
      · obtain ⟨other, inside, same⟩ := ih later
        exact ⟨other, List.mem_cons_of_mem _ inside, same⟩

theorem Indexed.pictured_all (decode : Decoder) (camera : String) (e : Indexed Value) :
    (e.pictured decode camera).all = shown decode (e.images camera) := by
  rw [← e.recorded_all camera]
  simp only [pictured, Recorded.all, shown, List.filterMap_append]

/-- Pictures are missing where images are. -/
theorem Indexed.pictured_parts {e : Indexed Value}
    (encodable : Encodable decode (e.images camera)) :
    ((e.pictured decode camera).flushed = [] ↔ (e.recorded camera).flushed = []) ∧
      ((e.pictured decode camera).tail = [] ↔ (e.recorded camera).tail = []) ∧
      ((e.pictured decode camera).all = [] ↔ e.images camera = []) := by
  have joined := e.recorded_all camera
  refine ⟨Encodable.shown_eq_nil (encodable.mono ?_), Encodable.shown_eq_nil (encodable.mono ?_), ?_⟩
  · rw [← joined]
    exact List.subset_append_left _ _
  · rw [← joined]
    exact List.subset_append_right _ _
  · rw [pictured_all]
    exact encodable.shown_eq_nil

theorem apart_iff {episodes : List (Indexed Value)} {decode : Decoder}
    (encodable : ∀ e ∈ episodes, ∀ camera, Encodable decode (e.images camera)) :
    (episodes.Pairwise fun e f => e.1 = f.1 →
        ∀ camera, e.images camera = [] ∧ f.images camera = []) ↔
      ∀ camera, Recorded.Apart (episodes.map (Indexed.pictured decode camera)) := by
  have blank : ∀ e ∈ episodes, ∀ camera,
      (e.pictured decode camera).all = [] ↔ e.images camera = [] := fun e member camera =>
    (Indexed.pictured_parts (encodable e member camera)).2.2
  simp only [Recorded.Apart, List.pairwise_map]
  constructor
  · intro own camera
    refine own.imp_of_mem fun inE inF apart same => ?_
    obtain ⟨first, second⟩ := apart same camera
    exact ⟨(blank _ inE camera).mpr first, (blank _ inF camera).mpr second⟩
  · intro apart
    rw [List.pairwise_iff_getElem]
    intro i j below below' less same camera
    have here := List.pairwise_iff_getElem.mp (apart camera) i j below below' less same
    exact ⟨(blank _ (List.getElem_mem below) camera).mp here.1,
      (blank _ (List.getElem_mem below') camera).mp here.2⟩

/-- What the calls leave of every camera's videos. -/
theorem LerobotWriter.runVideos_spec [Zero Value] (flushing : FlushingConfig) {decode : Decoder}
    (perChunk : ℕ+) (index : Nat) {finished : List (EpisodeCalls Value)}
    {last : EpisodeCalls Value}
    (succeeds : ∀ episode ∈ finished ++ [last], Succeeds decode episode) :
    ∃ final, (localWriter flushing decode perChunk index).runVideos finished last = .ok final ∧
      ∀ camera i, final.videoFiles.get (videoPath ((localWriter flushing decode perChunk index :
          LerobotWriter Value).chunkOf i) camera i) =
        Recorded.videos ((numbered index finished).map (Indexed.pictured decode camera))
          (Indexed.pictured decode camera
            (last.start.next (indexAfter index finished), last.frames)) i := by
  have start : LerobotWriter.Tracks (localWriter flushing decode perChunk index) index []
      (localWriter flushing decode perChunk index : LerobotWriter Value) :=
    ⟨localWriter_ready, rfl, rfl, rfl, fun _ => rfl, fun _ _ => rfl⟩
  have late := succeeds last (by simp)
  obtain ⟨w, ran, tracks⟩ := start.runCalls finished fun episode member =>
    succeeds episode (List.mem_append_left _ member)
  obtain ⟨final, stats, finalized, videos⟩ :=
    (tracks.starting last.start).finalize last.frames late.observed late.encodable
  refine ⟨final, ?_, videos⟩
  simp only [LerobotWriter.runVideos, ran, bind, Except.bind, finalized]

section
variable {index : Nat} {finished : List (EpisodeCalls Value)} {last : EpisodeCalls Value}
variable {decode : Decoder}

/-- The frames after the last finish, under the index of the merge. -/
def lastEpisode (index : Nat) (finished : List (EpisodeCalls Value)) (last : EpisodeCalls Value) :
    Indexed Value :=
  (last.start.next (indexAfter index finished), last.frames)

/-- One camera at a time, the episodes are those of the map. -/
theorem numbered_pictured (camera : String) :
    (numbered index (finished ++ [last])).map (Indexed.pictured decode camera) =
      Recorded.episodes ((numbered index finished).map (Indexed.pictured decode camera))
        ((lastEpisode index finished last).pictured decode camera) (!last.frames.isEmpty) := by
  rw [numbered_concat, List.map_append, Recorded.episodes]
  cases last.frames.isEmpty <;> rfl

theorem lastEpisode_idle (camera : String) (idle : (!last.frames.isEmpty) = false) :
    ((lastEpisode index finished last).pictured decode camera).all = [] := by
  have none_ : last.frames = [] := by simpa using idle
  rw [Indexed.pictured_all]
  simp [Indexed.images, lastEpisode, none_, LerobotWriter.imagesOf, shown]

theorem flushedAlone_pictured (camera : String)
    (encodable : ∀ e ∈ numbered index finished, Encodable decode (e.images camera))
    (lastEncodable : Encodable decode ((lastEpisode index finished last).images camera)) :
    Recorded.FlushedAlone ((numbered index finished).map (Indexed.pictured decode camera))
        ((lastEpisode index finished last).pictured decode camera) ↔
      Recorded.FlushedAlone ((numbered index finished).map (Indexed.recorded camera))
        ((lastEpisode index finished last).recorded camera) := by
  let g : Recorded ImageData → Recorded VideoFrame := fun e =>
    ⟨e.index, shown decode e.flushed, shown decode e.tail⟩
  have split : (numbered index finished).map (Indexed.pictured decode camera) =
      ((numbered index finished).map (Indexed.recorded camera)).map g := by
    rw [List.map_map]
    rfl
  have same : (lastEpisode index finished last).pictured decode camera =
      g ((lastEpisode index finished last).recorded camera) := rfl
  rw [split, same]
  refine Recorded.flushedAlone_map g (fun _ => rfl) ?_ ?_ ?_
  · intro e' member
    obtain ⟨e, inside, rfl⟩ := List.mem_map.mp member
    exact (Indexed.pictured_parts (encodable e inside)).1
  · intro e' member
    obtain ⟨e, inside, rfl⟩ := List.mem_map.mp member
    exact (Indexed.pictured_parts (encodable e inside)).2.1
  · rw [Indexed.recorded_all]
    exact (Indexed.pictured_parts lastEncodable).2.2

/-- The videos are complete exactly when every camera's are. -/
theorem videosComplete_iff (start : LerobotWriter Value) {final : LerobotWriter Value}
    {episodes : List (Indexed Value)}
    (encodable : ∀ e ∈ episodes, ∀ camera, Encodable start.decode (e.images camera))
    (made : String → Nat → Option (List VideoFrame))
    (videos : ∀ camera i, final.videoFiles.get (videoPath (start.chunkOf i) camera i) =
      made camera i) :
    VideosComplete start episodes final ↔ ∀ camera,
      Recorded.Apart (episodes.map (Indexed.pictured start.decode camera)) ∧
      ∀ e ∈ episodes.map (Indexed.pictured start.decode camera),
        made camera e.index = if e.all.isEmpty then none else some e.all := by
  have same : ∀ e ∈ episodes, ∀ camera,
      (if (e.images camera).isEmpty then none
        else some ((e.images camera).filterMap (prepared start.decode))) =
      if (e.pictured start.decode camera).all.isEmpty then none
        else some (e.pictured start.decode camera).all := by
    intro e member camera
    have blank := (Indexed.pictured_parts (encodable e member camera)).2.2
    rw [Indexed.pictured_all] at blank ⊢
    simp only [List.isEmpty_iff, blank]
    rfl
  constructor
  · rintro ⟨ownIndex, hold⟩ camera
    refine ⟨(apart_iff encodable).mp ownIndex camera, ?_⟩
    intro e' member
    obtain ⟨e, inside, rfl⟩ := List.mem_map.mp member
    rw [← same e inside camera, ← hold e inside camera]
    exact (videos camera e.1).symm
  · intro each
    refine ⟨(apart_iff encodable).mpr fun camera => (each camera).1, ?_⟩
    intro e inside camera
    rw [videos, same e inside camera]
    exact (each camera).2 _ (List.mem_map_of_mem inside)

end

/-- The cameras that have images. -/
def filmed (calls : List (EpisodeCalls Value)) : Set String :=
  {camera | ∃ episode ∈ calls, ∃ point ∈ episode.frames, point.1.images.get camera ≠ none}

/-- For every sequence of frames with any cameras, every choice of the frames after which the
buffers are flushed, every placement of the finishes and every way the indices are set: the
texts that files are kept under stand for the files and each episode's videos hold exactly
its images, exactly when the cameras have directories of their own and the flushes stay
home. -/
theorem videos_complete_iff_flushes_stay_home [Zero Value] (flushing : FlushingConfig)
    (decode : Decoder) (perChunk : ℕ+) (index : Nat) (finished : List (EpisodeCalls Value))
    (last : EpisodeCalls Value)
    (succeeds : ∀ episode ∈ finished ++ [last], Succeeds decode episode) :
    (KeysAreFiles (filmed (finished ++ [last])) ∧
      ∃ final, (localWriter flushing decode perChunk index).runVideos finished last = .ok final ∧
        VideosComplete (localWriter flushing decode perChunk index)
          (numbered index (finished ++ [last])) final) ↔
      NamesApart (filmed (finished ++ [last])) ∧ FlushesStayHome index finished last := by
  rw [keysAreFiles_iff]
  refine and_congr_right fun _ => ?_
  obtain ⟨final, ran, videos⟩ := LerobotWriter.runVideos_spec flushing perChunk index succeeds
  have encodable : ∀ e ∈ numbered index (finished ++ [last]), ∀ camera,
      Encodable decode (e.images camera) := by
    intro e member camera
    obtain ⟨episode, inside, same⟩ := exists_call member
    rw [Indexed.images, ← same]
    exact (succeeds episode inside).encodable camera
  have early : ∀ e ∈ numbered index finished, e ∈ numbered index (finished ++ [last]) := by
    intro e member
    rw [numbered_concat]
    exact List.mem_append_left _ member
  have late : ∀ camera, Encodable decode ((lastEpisode index finished last).images camera) :=
    (succeeds last (by simp)).encodable
  have complete :=
    videosComplete_iff (localWriter flushing decode perChunk index) encodable _ videos
  have alone : ∀ camera, _ := fun camera => flushedAlone_pictured camera
    (fun e member => encodable e (early e member) camera) (late camera)
  have apart := apart_iff encodable
  simp only [numbered_pictured] at complete apart
  constructor
  · rintro ⟨final', ran', whole⟩
    rw [ran] at ran'
    cases ran'
    have each := complete.mp whole
    refine ⟨whole.ownIndex, fun camera => (alone camera).mp ?_⟩
    exact Recorded.flushedAlone_of_complete (lastEpisode_idle camera) (each camera).1 (each camera).2
  · intro home
    refine ⟨final, ran, complete.mpr fun camera => ?_⟩
    have own := apart.mp home.ownIndex camera
    exact ⟨own, Recorded.complete_of_flushedAlone (lastEpisode_idle camera) own
      ((alone camera).mpr (home.alone camera))⟩

/-- A raw picture of one pixel. -/
def pixel (value : UInt8) : ImageData := ⟨1, 1, [value, value, value], 0, false, false⟩

/-- A frame with a state and a picture. -/
def pixelFrame (value : UInt8) : AlignedFrame Nat :=
  { stateFrame 0 with images := Kv.empty.put "front" (pixel value) }

theorem pixelFrame_images (value : UInt8) (camera : String) :
    (pixelFrame value).images.get camera = if camera = "front" then some (pixel value) else none := by
  by_cases front : camera = "front"
  · subst front
    rfl
  · rw [if_neg front]
    exact Kv.get_put_ne _ front _

theorem pixels_succeed {episode : EpisodeCalls Nat}
    (pixels : ∀ point ∈ episode.frames, ∃ value, point.1 = pixelFrame value) :
    Succeeds decode episode := by
  refine ⟨?_, ?_⟩
  · intro some_
    obtain ⟨point, member⟩ := List.exists_mem_of_ne_nil _ some_
    obtain ⟨value, same⟩ := pixels point member
    have observed : hasObservation (stateFrame 0) = true := by decide +kernel
    refine ⟨point, member, ?_⟩
    rw [same]
    exact observed
  · intro camera
    refine ⟨1, 1, ?_⟩
    intro image member
    obtain ⟨frame, inside, read⟩ := List.mem_filterMap.mp member
    obtain ⟨point, listed, rfl⟩ := List.mem_map.mp inside
    obtain ⟨value, same⟩ := pixels point listed
    rw [same, pixelFrame_images] at read
    split at read
    · cases read
      exact ⟨⟨1, 1, [value, value, value]⟩, rfl, rfl, rfl⟩
    · cases read

theorem front_apart {calls : List (EpisodeCalls Nat)}
    (pixels : ∀ episode ∈ calls, ∀ point ∈ episode.frames, ∃ value, point.1 = pixelFrame value) :
    NamesApart (filmed calls) := by
  have front : ∀ camera ∈ filmed calls, camera = "front" := by
    rintro camera ⟨episode, member, point, inside, imaged⟩
    obtain ⟨value, same⟩ := pixels episode member point inside
    rw [same, pixelFrame_images] at imaged
    by_contra other
    exact imaged (if_neg other)
  have named : UnixPath.parts "front".toList = [.normal "front".toList] :=
    UnixPath.parts_name (by decide) (by decide)
  refine ⟨?_, ?_, ?_⟩
  · intro camera used
    rw [front camera used]
    decide
  · intro camera used
    rw [front camera used, named]
    simp
  · intro camera used other used' _
    rw [front camera used, front other used']

/-- The last episode is flushed after its frame, under an index of its own. -/
theorem flushed_last_episode_complete :
    KeysAreFiles (filmed [⟨.startEpisode, [(pixelFrame 1, false)]⟩,
      ⟨.setIndex 1, [(pixelFrame 2, true)]⟩]) ∧
    ∃ final, (localWriter ⟨0, 0⟩ (fun _ => none) 500 0).runVideos
        [⟨.startEpisode, [(pixelFrame 1, false)]⟩] ⟨.setIndex 1, [(pixelFrame 2, true)]⟩ =
          .ok final ∧
      VideosComplete (localWriter ⟨0, 0⟩ (fun _ => none) 500 0)
        [(0, [(pixelFrame 1, false)]), (1, [(pixelFrame 2, true)])] final := by
  have pixels : ∀ episode ∈ [⟨.startEpisode, [(pixelFrame 1, false)]⟩] ++
      [⟨.setIndex 1, [(pixelFrame 2, true)]⟩],
      ∀ point ∈ EpisodeCalls.frames episode, ∃ value, point.1 = pixelFrame value := by
    intro episode member point inside
    simp only [List.cons_append, List.nil_append, List.mem_cons, List.not_mem_nil, or_false]
      at member
    rcases member with rfl | rfl
    · exact ⟨1, congrArg Prod.fst (List.mem_singleton.mp inside)⟩
    · exact ⟨2, congrArg Prod.fst (List.mem_singleton.mp inside)⟩
  refine (videos_complete_iff_flushes_stay_home ⟨0, 0⟩ (fun _ => none) 500 0
    [⟨.startEpisode, [(pixelFrame 1, false)]⟩] ⟨.setIndex 1, [(pixelFrame 2, true)]⟩
    (fun episode member => pixels_succeed (pixels episode member))).mpr ⟨front_apart pixels, ?_, ?_⟩
  · simp [numbered, EpisodeStart.next]
  · intro camera before e after split some_
    have only : e ∈ [Indexed.recorded camera (0, [(pixelFrame 1, false)])] := by
      have member : e ∈ before ++ e :: after := by simp
      rw [← split] at member
      exact member
    rw [List.mem_singleton.mp only] at some_
    exact absurd rfl some_

/-- The picture written after the flush is encoded when the episode finishes, and the
merge overwrites it with the one flushed before. -/
theorem tail_overwritten_by_merge :
    ¬∃ final, (localWriter ⟨0, 0⟩ (fun _ => none) 500 0).runVideos
        [⟨.startEpisode, [(pixelFrame 1, true), (pixelFrame 2, false)]⟩] ⟨.keep, []⟩ =
          .ok final ∧
      VideosComplete (localWriter ⟨0, 0⟩ (fun _ => none) 500 0)
        [(0, [(pixelFrame 1, true), (pixelFrame 2, false)])] final := by
  rintro ⟨final, ran, complete⟩
  have made : ((localWriter ⟨0, 0⟩ (fun _ => none) 500 0).runVideos
      [⟨.startEpisode, [(pixelFrame 1, true), (pixelFrame 2, false)]⟩]
      ⟨.keep, []⟩).toOption.map (fun final => final.videoFiles.get (videoPath 0 "front" 0)) =
        some (some [⟨1, 1, [1, 1, 1]⟩]) := by
    decide +kernel
  rw [ran] at made
  have both : final.videoFiles.get (videoPath 0 "front" 0) =
      some [⟨1, 1, [1, 1, 1]⟩, ⟨1, 1, [2, 2, 2]⟩] :=
    complete.videos _ List.mem_cons_self "front"
  have one : final.videoFiles.get (videoPath 0 "front" 0) = some [⟨1, 1, [1, 1, 1]⟩] :=
    Option.some.inj made
  rw [both] at one
  simp at one

end Roboflow.Lerobot
