import Roboflow.Pipeline.FrameAlignment
import Roboflow.Lerobot.EpisodeFiles

/-! The columns that number the rows of a dataset. The executor counts the frames of the
whole run; its count becomes the position of a row in its episode and the position in
the dataset alike, and the timestamps are those of the recording. The executor's calls
are replayed on a writer that gives each episode its own file, and the rows found there
are compared with the format. -/
namespace Roboflow.Pipeline
open Library
open Roboflow.Alignment (AlignedFrame ImageData)
open Roboflow.Lerobot (LerobotWriter LerobotFrame ParquetRow FlushingConfig Decoder)
open Roboflow.Lerobot (episodeRows fillRows parquetPath parquetPath_injective localWriter)

variable {Value : Type}

/-! ### The calls on a writer -/

/-- The episodes a log shows, oldest first: their indices and frames. -/
def episodesOf : WriterLog Value → List (Nat × List (AlignedFrame Value))
  | [] => []
  | (.startEpisode index, true) :: older => episodesOf older ++ [(index, [])]
  | (.writeFrame frame, true) :: older =>
    (episodesOf older).dropLast ++
      ((episodesOf older).getLast?.map fun episode => (episode.1, episode.2 ++ [frame])).toList
  | _ :: older => episodesOf older

/-- A call on a writer that takes the executor's index for an episode's own. -/
def answer [Zero Value] (w : LerobotWriter Value) :
    WriterCall Value → Except String (LerobotWriter Value)
  | .startEpisode index => .ok (w.setEpisodeIndex index)
  | .writeFrame frame => .ok (w.writeFrame frame)
  | .finishEpisode => w.finishEpisode.map Prod.fst
  | .finalize => w.finalize.map Prod.fst

def replay [Zero Value] (w : LerobotWriter Value) :
    WriterLog Value → Except String (LerobotWriter Value)
  | [] => .ok w
  | (c, _) :: older => do
    let w ← replay w older
    answer w c

/-! ### The format -/

/-- The images that wait for a camera after frames that are not flushed. -/
def imagesBuffered (camera : String) (frames : List (AlignedFrame Value)) : List ImageData :=
  (frames.foldl LerobotWriter.addFrame
    (LerobotWriter.newLocal ⟨0, 0⟩ fun _ => none)).imageBuffers.bucket camera

/-- The rows of an episode after so many rows of earlier episodes: numbered from 0, the
global index after the earlier ones, timestamps from the first row on, and the rows in
the order of the images. -/
structure FollowsFormat (earlier : Nat) (frames : List (AlignedFrame Value))
    (rows : List (ParquetRow Value)) : Prop where
  frameIndex : rows.map (·.frameIndex) = List.range frames.length
  index : ∀ row ∈ rows, row.index = earlier + row.frameIndex
  ordered : (rows.map (·.timestamp)).Pairwise (· ≤ ·)
  fromFirst : ∀ first ∈ frames.head?,
    rows.map (fun row => row.timestamp + first.timestamp) = frames.map (·.timestamp)
  images : ∀ camera, (∀ frame ∈ frames, (frame.images.get camera).isSome) →
    (imagesBuffered camera frames).length = rows.length ∧
    ∀ (i : Nat) row image, rows[i]? = some row → (imagesBuffered camera frames)[i]? = some image →
      ∃ frame, frames[i]? = some frame ∧ frame.images.get camera = some image ∧
        row.frameIndex = frame.frameIndex

/-- Every episode that has frames has a file of rows that follow the format. -/
def RowsFollowFormat (start : LerobotWriter Value) (log : WriterLog Value)
    (final : LerobotWriter Value) : Prop :=
  ∀ before index frames after, episodesOf log = before ++ (index, frames) :: after → frames ≠ [] →
    ∃ rows, final.parquetFiles.get (parquetPath (start.chunkOf index) index) = some rows ∧
      FollowsFormat (before.map fun episode => episode.2.length).sum frames rows

/-! ### What the messages are to be -/

def convertible (config : DatasetPipelineConfig) (msg : TimestampedMessage Value) : Bool :=
  (converted config msg).isSome

def carriesImage (config : DatasetPipelineConfig) (msg : TimestampedMessage Value) : Bool :=
  match converted config msg with
  | some (_, .image _) => true
  | _ => false

/-- The messages up to the limit on frames, after some convertible ones. -/
def processed (config : DatasetPipelineConfig) :
    Nat → List (TimestampedMessage Value) → List (TimestampedMessage Value)
  | _, [] => []
  | seen, msg :: rest =>
    if config.maxFrames.any (· ≤ seen) then []
    else msg :: processed config (seen + if convertible config msg then 1 else 0) rest

/-- The strategy ends an episode before a message: past a gap, or after enough images. -/
def EndsEpisode (config : DatasetPipelineConfig) (before : List (TimestampedMessage Value))
    (msg : TimestampedMessage Value) : Prop :=
  match config.episodeStrategy with
  | .single => False
  | .gapBased thresholdNs =>
    ∃ last ∈ before.getLast?, last.logTime < msg.logTime ∧ thresholdNs < msg.logTime - last.logTime
  | .frameCount maxFrames => maxFrames ≤ before.countP (carriesImage config)

/-- No episode ends between two convertible messages. -/
def Together (config : DatasetPipelineConfig) (messages : List (TimestampedMessage Value)) : Prop :=
  ∀ before msg after, messages = before ++ msg :: after → before.any (convertible config) →
    (msg :: after).any (convertible config) → ¬EndsEpisode config before msg

/-- The convertible messages are all of one episode, start in the first frame interval
of the clock, and do not go back in time. -/
structure OneEpisodeFromZero (config : DatasetPipelineConfig)
    (messages : List (TimestampedMessage Value)) : Prop where
  together : Together config messages
  fromZero : ∀ first ∈ (messages.filter (convertible config)).head?,
    Executor.alignedTimestamp config first.logTime = 0
  ordered : ((messages.filter (convertible config)).map
    fun msg => Executor.alignedTimestamp config msg.logTime).Pairwise (· ≤ ·)

/-! ### Rows and frames -/

theorem imagesBuffered_eq (camera : String) (frames : List (AlignedFrame Value)) :
    imagesBuffered camera frames = LerobotWriter.imagesOf camera frames := by
  unfold imagesBuffered LerobotWriter.imagesOf
  induction frames using List.reverseRecOn with
  | nil => rfl
  | append_singleton frames frame ih =>
    rw [List.foldl_append, List.foldl_cons, List.foldl_nil, LerobotWriter.addFrame_bucket, ih,
      List.filterMap_append, List.filterMap_cons, List.filterMap_nil]
    cases frame.images.get camera <;> rfl

/-- Where every frame has an image of the camera, the images wait in the frames' order. -/
theorem imagesBuffered_each {camera : String} {frames : List (AlignedFrame Value)}
    (carry : ∀ frame ∈ frames, (frame.images.get camera).isSome) :
    (imagesBuffered camera frames).map some = frames.map (·.images.get camera) := by
  rw [imagesBuffered_eq, LerobotWriter.imagesOf]
  induction frames with
  | nil => rfl
  | cons frame rest ih =>
    obtain ⟨image, found⟩ := Option.isSome_iff_exists.mp (carry frame List.mem_cons_self)
    rw [List.filterMap_cons, List.map_cons, found, List.map_cons,
      ih fun other member => carry other (List.mem_cons_of_mem _ member)]

theorem fillRows_columns [Zero Value] (cameras : List String) (episode chunk dim : Nat)
    (state action : Option (List Value)) (frames : List (LerobotFrame Value)) :
    (fillRows cameras episode chunk dim state action frames).map
        (fun row => (row.frameIndex, row.index, row.timestamp)) =
      frames.map fun frame => (frame.frameIndex, frame.index, frame.timestamp) := by
  induction frames generalizing state action with
  | nil => rfl
  | cons frame rest ih => simp only [fillRows, List.map_cons, ih]

/-- The numbering columns are the executor's count, twice, and the time of the frame. -/
theorem episodeRows_columns [Zero Value] {frames : List (AlignedFrame Value)}
    (made : episodeRows (frames.map (.fromAlignedFrame · episode)) index chunk = .ok rows) :
    rows.map (fun row => (row.frameIndex, row.index, row.timestamp)) =
      frames.map fun frame => (frame.frameIndex, frame.frameIndex, frame.timestamp) := by
  unfold episodeRows at made
  split at made
  · cases made
  · cases made
    rw [List.map_map]
    refine (fillRows_columns ..).trans ?_
    rw [List.map_map]
    rfl

/-- Rows of frames that follow in the count after the earlier ones. -/
theorem followsFormat_iff {frames : List (AlignedFrame Value)} {rows : List (ParquetRow Value)}
    (columns : rows.map (fun row => (row.frameIndex, row.index, row.timestamp)) =
      frames.map fun frame => (frame.frameIndex, frame.frameIndex, frame.timestamp))
    (some_ : frames ≠ [])
    (counted : frames.map (·.frameIndex) = List.range' earlier frames.length) :
    FollowsFormat earlier frames rows ↔ earlier = 0 ∧
      (∀ first ∈ frames.head?, first.timestamp = 0) ∧
        (frames.map (·.timestamp)).Pairwise (· ≤ ·) := by
  have frameIndex : rows.map (·.frameIndex) = frames.map (·.frameIndex) := by
    have same := congrArg (List.map fun column => column.1) columns
    rwa [List.map_map, List.map_map] at same
  have timestamps : rows.map (·.timestamp) = frames.map (·.timestamp) := by
    have same := congrArg (List.map fun column => column.2.2) columns
    rwa [List.map_map, List.map_map] at same
  have index : ∀ row ∈ rows, row.index = row.frameIndex := by
    intro row member
    have column : (row.frameIndex, row.index, row.timestamp) ∈
        frames.map fun frame => (frame.frameIndex, frame.frameIndex, frame.timestamp) := by
      rw [← columns]
      exact List.mem_map_of_mem member
    obtain ⟨frame, -, same⟩ := List.mem_map.mp column
    simp only [Prod.mk.injEq] at same
    exact same.2.1.symm.trans same.1
  have shift : ∀ n : Nat, rows.map (fun row => row.timestamp + n) =
      (frames.map (·.timestamp)).map (· + n) := by
    intro n
    rw [← timestamps, List.map_map]
    rfl
  obtain ⟨first, rest, rfl⟩ := List.exists_cons_of_ne_nil some_
  constructor
  · intro follows
    refine ⟨?_, ?_, timestamps ▸ follows.ordered⟩
    · have same := follows.frameIndex
      rw [frameIndex, counted, List.range_eq_range'] at same
      simp only [List.length_cons, List.range'_succ, List.cons.injEq] at same
      exact same.1
    · rintro _ ⟨⟩
      have same := follows.fromFirst first rfl
      rw [shift] at same
      simp only [List.map_cons, List.cons.injEq] at same
      exact Nat.add_eq_left.mp same.1
  · rintro ⟨rfl, zero, ordered⟩
    refine ⟨?_, ?_, timestamps ▸ ordered, ?_, ?_⟩
    · rw [frameIndex, counted, List.range_eq_range']
    · intro row member
      rw [index row member, Nat.zero_add]
    · rintro _ ⟨⟩
      rw [shift, zero first rfl]
      simp
    · intro camera carry
      have all := imagesBuffered_each carry
      have lengths : rows.length = (first :: rest).length := by
        simpa using congrArg List.length columns
      refine ⟨by simpa [lengths] using congrArg List.length all, ?_⟩
      intro i row image atRow atImage
      have below : i < (first :: rest).length := by
        rw [← lengths]
        exact (List.getElem?_eq_some_iff.mp atRow).1
      have atFrame := List.getElem?_eq_getElem below
      have sameImage := congrArg (·[i]?) all
      have sameIndex := congrArg (·[i]?) frameIndex
      simp only [List.getElem?_map, atRow, atImage, atFrame, Option.map_some,
        Option.some.injEq] at sameImage sameIndex
      exact ⟨_, atFrame, sameImage.symm, sameIndex⟩

/-! ### The files of the episodes -/

/-- The calls of an episode up to its last frame, newest first. -/
def episodeLog (index : Nat) (frames : List (AlignedFrame Value)) : WriterLog Value :=
  (frames.map fun frame => (.writeFrame frame, true)).reverse ++ [(.startEpisode index, true)]

/-- Finished episodes, newest first. -/
def closedLog : List (List (AlignedFrame Value)) → WriterLog Value
  | [] => []
  | frames :: older => (.finishEpisode, true) :: (episodeLog older.length frames ++ closedLog older)

theorem episodeLog_concat (index : Nat) (frames : List (AlignedFrame Value))
    (frame : AlignedFrame Value) :
    episodeLog index (frames ++ [frame]) = (.writeFrame frame, true) :: episodeLog index frames := by
  simp [episodeLog]

theorem episodeLog_take (index : Nat) (frames : List (AlignedFrame Value))
    (frame : Option (AlignedFrame Value)) :
    frame.toList.map (fun frame => (.writeFrame frame, true)) ++ episodeLog index frames =
      episodeLog index (frames ++ frame.toList) := by
  cases frame with
  | none => simp
  | some frame => exact (episodeLog_concat index frames frame).symm

theorem episodesOf_episodeLog (index : Nat) (frames : List (AlignedFrame Value))
    (older : WriterLog Value) :
    episodesOf (episodeLog index frames ++ older) = episodesOf older ++ [(index, frames)] := by
  induction frames using List.reverseRecOn with
  | nil => rfl
  | append_singleton frames frame ih =>
    rw [episodeLog_concat, List.cons_append, episodesOf, ih]
    simp

/-- The frames of the finished episodes in order, numbered from 0. -/
theorem episodesOf_closedLog (closed : List (List (AlignedFrame Value))) :
    (episodesOf (closedLog closed)).map Prod.snd = closed.reverse ∧
      (episodesOf (closedLog closed)).map Prod.fst = List.range closed.length := by
  induction closed with
  | nil => exact ⟨rfl, rfl⟩
  | cons frames older ih =>
    have same : episodesOf (closedLog (frames :: older)) =
        episodesOf (closedLog older) ++ [(older.length, frames)] :=
      episodesOf_episodeLog older.length frames (closedLog older)
    rw [same, List.map_append, List.map_append, ih.1, ih.2, List.reverse_cons, List.length_cons,
      List.range_succ]
    exact ⟨rfl, rfl⟩

/-- An episode of the log has the number of the episodes before it. -/
theorem episodesOf_place {closed : List (List (AlignedFrame Value))}
    (split : episodesOf (closedLog closed) = before ++ (index, frames) :: after) :
    index = before.length ∧
      closed.reverse = before.map Prod.snd ++ frames :: after.map Prod.snd := by
  obtain ⟨allFrames, indices⟩ := episodesOf_closedLog closed
  rw [split, List.map_append, List.map_cons] at allFrames indices
  refine ⟨?_, allFrames.symm⟩
  have below : before.length < closed.length := by
    have lengths := congrArg List.length indices
    simp only [List.length_append, List.length_map, List.length_cons, List.length_range] at lengths
    omega
  have here := congrArg (·[before.length]?) indices
  simpa [below] using here

section
variable [Zero Value] {start w : LerobotWriter Value}

theorem replay_append (w : LerobotWriter Value) (newer older : WriterLog Value) :
    replay w (newer ++ older) = (replay w older).bind fun w => replay w newer := by
  induction newer with
  | nil => cases found : replay w older <;> simp [replay, Except.bind, found]
  | cons entry rest ih =>
    simp only [List.cons_append, replay, ih, bind]
    cases replay w older <;> rfl

theorem replay_episodeLog (w : LerobotWriter Value) (index : Nat)
    (frames : List (AlignedFrame Value)) :
    replay w (episodeLog index frames) =
      .ok (frames.foldl LerobotWriter.writeFrame (w.setEpisodeIndex index)) := by
  induction frames using List.reverseRecOn with
  | nil => rfl
  | append_singleton frames frame ih =>
    rw [episodeLog_concat, replay, ih, List.foldl_append]
    rfl

/-- The writer between two episodes: the ones before have their files. -/
structure Filed (start : LerobotWriter Value) (closed : List (List (AlignedFrame Value)))
    (w : LerobotWriter Value) : Prop where
  ready : w.Ready
  perChunk : w.episodesPerChunk = start.episodesPerChunk
  files : ∀ newer frames older, closed = newer ++ frames :: older → frames ≠ [] →
    ∃ rows, episodeRows (frames.map (.fromAlignedFrame · older.length)) older.length
        (start.chunkOf older.length) = .ok rows ∧
      w.parquetFiles.get (parquetPath (start.chunkOf older.length) older.length) = some rows

theorem Filed.blank (filed : Filed start closed w) (index : Nat) :
    Filed start ([] :: closed) (w.setEpisodeIndex index) := by
  refine ⟨⟨filed.ready.noFrames, filed.ready.noImages, filed.ready.stored⟩, filed.perChunk, ?_⟩
  intro newer frames older split some_
  cases newer with
  | nil => exact absurd (List.cons.inj split).1.symm some_
  | cons _ newer => exact filed.files newer frames older (List.cons.inj split).2 some_

/-- An episode with frames is finished under the number of the episodes before. -/
theorem Filed.finish {w' : LerobotWriter Value} (filed : Filed start closed w)
    {frames : List (AlignedFrame Value)} (some_ : frames ≠ [])
    (ran : answer (frames.foldl LerobotWriter.writeFrame (w.setEpisodeIndex closed.length))
      .finishEpisode = .ok w') : Filed start (frames :: closed) w' := by
  have ready : (w.setEpisodeIndex closed.length).Ready :=
    ⟨filed.ready.noFrames, filed.ready.noImages, filed.ready.stored⟩
  obtain ⟨wrote, stored, data⟩ := ready.written frames
  generalize frames.foldl LerobotWriter.writeFrame (w.setEpisodeIndex closed.length) = full at *
  have index : full.episodeIndex = closed.length := wrote.episodeIndex
  have perChunk : full.episodesPerChunk = start.episodesPerChunk :=
    wrote.episodesPerChunk.trans filed.perChunk
  have chunk : full.chunkIndex = start.chunkOf closed.length := by
    simp only [LerobotWriter.chunkIndex, LerobotWriter.chunkOf, index, perChunk]
  have given : (w.setEpisodeIndex closed.length).episodeIndex = closed.length := rfl
  rw [given] at data
  rw [answer, LerobotWriter.finishEpisode_rows (by simpa [data] using some_), data, index,
    chunk] at ran
  cases made : episodeRows (frames.map (.fromAlignedFrame · closed.length)) closed.length
      (start.chunkOf closed.length) with
  | error e =>
    rw [made] at ran
    cases ran
  | ok rows =>
    rw [made] at ran
    cases ran
    refine ⟨⟨rfl, fun camera => Kv.bucket_drained _ camera, stored.finished rows⟩, perChunk, ?_⟩
    intro newer frames' older split some'
    have files : (full.finished rows).parquetFiles =
        w.parquetFiles.put (parquetPath (start.chunkOf closed.length) closed.length) rows := by
      show full.parquetFiles.put (parquetPath full.chunkIndex full.episodeIndex) rows = _
      rw [index, chunk, wrote.parquetFiles]
      rfl
    rw [files]
    cases newer with
    | nil =>
      obtain ⟨rfl, rfl⟩ := List.cons.inj split
      exact ⟨rows, made, Kv.get_put_self ..⟩
    | cons _ newer =>
      have inside := (List.cons.inj split).2
      obtain ⟨rows', made', found⟩ := filed.files newer frames' older inside some'
      refine ⟨rows', made', ?_⟩
      rw [Kv.get_put_ne, found]
      intro same
      have numbers := parquetPath_injective same
      rw [inside] at numbers
      simp at numbers
      omega

/-- Every finished episode that has frames has its rows in its own file. -/
theorem replay_closedLog (ready : start.Ready)
    (ran : replay start (closedLog closed) = .ok w) : Filed start closed w := by
  induction closed generalizing w with
  | nil =>
    cases ran
    exact ⟨ready, rfl, fun newer _ _ split => by simp at split⟩
  | cons frames older ih =>
    rw [closedLog, replay, replay_append] at ran
    cases before : replay start (closedLog older) with
    | error e =>
      rw [before] at ran
      cases ran
    | ok w₁ =>
      have filed := ih before
      rw [before, Except.bind, replay_episodeLog] at ran
      by_cases blank : frames = []
      · subst blank
        have unchanged : (w₁.setEpisodeIndex older.length).frameData = [] := filed.ready.noFrames
        have ran' : answer (w₁.setEpisodeIndex older.length) .finishEpisode = .ok w := ran
        rw [answer, LerobotWriter.finishEpisode_blank unchanged] at ran'
        cases ran'
        exact filed.blank older.length
      · exact filed.finish blank ran

/-- At the end of the dataset the files stay. -/
theorem Filed.finalize {final : LerobotWriter Value} (filed : Filed start closed w)
    (ran : answer w .finalize = .ok final) : final.parquetFiles = w.parquetFiles := by
  obtain ⟨merged, stats, finalized, -, same, -⟩ := filed.ready.finalize
  rw [answer, finalized] at ran
  cases ran
  exact same

end

/-! ### Splits of the messages -/

section
variable {config : DatasetPipelineConfig} {before : List (TimestampedMessage Value)}
variable {msg : TimestampedMessage Value}

/-- An episode ends after a convertible message. -/
def Broken (config : DatasetPipelineConfig) (messages : List (TimestampedMessage Value)) : Prop :=
  ∃ before msg after, messages = before ++ msg :: after ∧ before.any (convertible config) ∧
    EndsEpisode config before msg

/-- A place in a list with one more element is the last, or was one before. -/
theorem split_concat {xs first rest : List α} {x y : α} (split : xs ++ [x] = first ++ y :: rest) :
    (first = xs ∧ y = x ∧ rest = []) ∨
      ∃ rest', rest = rest' ++ [x] ∧ xs = first ++ y :: rest' := by
  rcases List.eq_nil_or_concat' rest with rfl | ⟨rest, last, rfl⟩
  · obtain ⟨rfl, same⟩ := List.append_inj' split rfl
    cases same
    exact .inl ⟨rfl, rfl, rfl⟩
  · rw [← List.cons_append, ← List.append_assoc] at split
    obtain ⟨inside, same⟩ := List.append_inj' split rfl
    cases same
    exact .inr ⟨rest, rfl, inside⟩

theorem broken_concat : Broken config (before ++ [msg]) ↔
    Broken config before ∨ before.any (convertible config) ∧ EndsEpisode config before msg := by
  constructor
  · rintro ⟨first, at_, rest, split, some_, ends⟩
    rcases split_concat split with ⟨rfl, rfl, -⟩ | ⟨rest, -, inside⟩
    · exact .inr ⟨some_, ends⟩
    · exact .inl ⟨first, at_, rest, inside, some_, ends⟩
  · rintro (⟨first, at_, rest, rfl, some_, ends⟩ | ⟨some_, ends⟩)
    · exact ⟨first, at_, rest ++ [msg], by simp, some_, ends⟩
    · exact ⟨before, msg, [], rfl, some_, ends⟩

theorem together_concat : Together config (before ++ [msg]) ↔
    Together config before ∧ (convertible config msg → ¬Broken config (before ++ [msg])) := by
  constructor
  · intro together
    refine ⟨?_, ?_⟩
    · intro first at_ rest split early late
      refine together first at_ (rest ++ [msg]) (by simp [split]) early ?_
      rw [← List.cons_append, List.any_append, late, Bool.true_or]
    · rintro own ⟨first, at_, rest, split, early, ends⟩
      refine together first at_ rest split early ?_ ends
      rcases split_concat split with ⟨-, rfl, -⟩ | ⟨rest, rfl, -⟩
      · simp [own]
      · simp [own]
  · rintro ⟨together, whole⟩ first at_ rest split early late ends
    by_cases own : convertible config msg = true
    · exact whole own ⟨first, at_, rest, split, early, ends⟩
    · rcases split_concat split with ⟨-, rfl, rfl⟩ | ⟨rest, rfl, inside⟩
      · simp [own] at late
      · refine together first at_ rest inside early ?_ ends
        rw [← List.cons_append, List.any_append] at late
        simpa [own] using late

theorem messageFrames_concat (config : DatasetPipelineConfig) (n : Nat)
    (before : List (TimestampedMessage Value)) (msg : TimestampedMessage Value) :
    messageFrames config n (before ++ [msg]) = messageFrames config n before ++
      (messageFrame config (n + (messageFrames config n before).length) msg).toList := by
  induction before generalizing n with
  | nil => simp [messageFrames]
  | cons first rest ih =>
    simp only [List.cons_append, messageFrames, ih, List.length_append, List.append_assoc,
      Nat.add_assoc]

theorem messageFrames_frameIndex (config : DatasetPipelineConfig) (n : Nat)
    (messages : List (TimestampedMessage Value)) :
    (messageFrames config n messages).map (·.frameIndex) =
      List.range' n (messageFrames config n messages).length := by
  induction messages generalizing n with
  | nil => rfl
  | cons msg rest ih =>
    simp only [messageFrames, List.map_append, ih, List.length_append]
    cases found : converted config msg with
    | none => simp [messageFrame, found]
    | some named =>
      obtain ⟨feature, data⟩ := named
      have index : (addContribution (.new n (Executor.alignedTimestamp config msg.logTime))
          feature data : AlignedFrame Value).frameIndex = n := by cases data <;> rfl
      simp [messageFrame, found, index, Nat.add_comm 1, List.range'_succ]

theorem messageFrame_isSome (config : DatasetPipelineConfig) (n : Nat)
    (msg : TimestampedMessage Value) :
    (messageFrame config n msg).toList = [] ↔ convertible config msg = false := by
  unfold messageFrame convertible
  cases converted config msg <;> simp

theorem messageFrames_eq_nil (config : DatasetPipelineConfig) (n : Nat)
    (messages : List (TimestampedMessage Value)) :
    messageFrames config n messages = [] ↔ messages.any (convertible config) = false := by
  induction messages generalizing n with
  | nil => simp [messageFrames]
  | cons msg rest ih =>
    rw [messageFrames, List.append_eq_nil_iff, ih, messageFrame_isSome, List.any_cons,
      Bool.or_eq_false_iff]

/-- A frame has an image exactly when its message carries one. -/
theorem messageFrame_images (config : DatasetPipelineConfig) (n : Nat)
    (msg : TimestampedMessage Value) :
    (messageFrame config n msg).toList.countP (fun frame => !frame.images.entries.isEmpty) =
      if carriesImage config msg then 1 else 0 := by
  unfold messageFrame carriesImage
  cases converted config msg with
  | none => rfl
  | some named =>
    obtain ⟨feature, data⟩ := named
    cases data with
    | image data => simp [addContribution, put_isEmpty]
    | state values => rfl
    | action values => rfl

theorem messageFrames_images (config : DatasetPipelineConfig) (n : Nat)
    (messages : List (TimestampedMessage Value)) :
    (messageFrames config n messages).countP (fun frame => !frame.images.entries.isEmpty) =
      messages.countP (carriesImage config) := by
  induction messages generalizing n with
  | nil => rfl
  | cons msg rest ih =>
    rw [messageFrames, List.countP_append, ih, messageFrame_images, List.countP_cons, Nat.add_comm]

end

/-! ### Episodes that stand alone -/

/-- Of two lists one is empty. -/
def Alone (episodes : List (List α)) : Prop := episodes.Pairwise fun a b => a = [] ∨ b = []

theorem alone_concat {closed : List (List α)} {frames : List α} :
    Alone (closed ++ [frames]) ↔ Alone closed ∧ ∀ other ∈ closed, other = [] ∨ frames = [] := by
  simp [Alone, List.pairwise_append]

theorem alone_extended {closed : List (List α)} {frames extra : List α} (some_ : extra ≠ []) :
    Alone (closed ++ [frames ++ extra]) ↔
      Alone (closed ++ [frames]) ∧ ∀ other ∈ closed, other = [] := by
  rw [alone_concat, alone_concat]
  constructor
  · rintro ⟨alone, across⟩
    have blank : ∀ other ∈ closed, other = [] := fun other member =>
      (across other member).resolve_right (by simp [some_])
    exact ⟨⟨alone, fun other member => .inl (blank other member)⟩, blank⟩
  · rintro ⟨⟨alone, -⟩, blank⟩
    exact ⟨alone, fun other member => .inl (blank other member)⟩

theorem alone_iff {episodes : List (List α)} :
    Alone episodes ↔ ∀ before frames after, episodes = before ++ frames :: after → frames ≠ [] →
      before.flatten = [] := by
  induction episodes using List.reverseRecOn with
  | nil => simp [Alone]
  | append_singleton episodes last ih =>
    rw [alone_concat, ih]
    constructor
    · rintro ⟨alone, across⟩ before frames after split some_
      rcases split_concat split with ⟨rfl, rfl, -⟩ | ⟨after, -, inside⟩
      · rw [List.flatten_eq_nil_iff]
        exact fun other member => (across other member).resolve_right some_
      · exact alone before frames after inside some_
    · intro alone
      refine ⟨?_, ?_⟩
      · intro before frames after inside some_
        exact alone before frames (after ++ [last]) (by simp [inside]) some_
      · intro other member
        by_cases blank : last = []
        · exact .inr blank
        · have nothing := alone episodes last [] rfl blank
          exact .inl (List.flatten_eq_nil_iff.mp nothing other member)

/-- The only list that is not empty is the whole. -/
theorem Alone.flatten {before after : List (List α)} {frames : List α}
    (alone : Alone (before ++ frames :: after)) (some_ : frames ≠ []) :
    (before ++ frames :: after).flatten = frames := by
  have early := alone_iff.mp alone before frames after rfl some_
  have late : after.flatten = [] := by
    rw [List.flatten_eq_nil_iff]
    intro other member
    have later := (List.pairwise_cons.mp (List.pairwise_append.mp alone).2.1).1 other member
    exact later.resolve_left some_
  rw [List.flatten_append, List.flatten_cons, early, late]
  simp

/-! ### The run -/

namespace Executor

/-- The automatic start. -/
def opened (s : Executor Value) : Executor Value :=
  if s.episodeStarted then s
  else { s with
    episodeIndex := 0
    framesInEpisode := 0
    episodeStarted := true
    log := (.startEpisode 0, true) :: s.log }

/-- The end of an episode and the start of the next. -/
def turned (s : Executor Value) : Executor Value :=
  { s with
    episodesWritten := s.episodesWritten + 1
    episodeIndex := s.episodeIndex + 1
    framesInEpisode := 0
    episodeStarted := true
    log := (.startEpisode (s.episodeIndex + 1), true) :: (.finishEpisode, true) :: s.log }

theorem processBoundary_succeeding (config : DatasetPipelineConfig) (s : Executor Value)
    (logTime : Nat) :
    s.processBoundary succeeding config logTime =
      .ok (if s.opened.atBoundary config logTime then s.opened.turned else s.opened) := by
  have started : s.opened.episodeStarted = true := by
    unfold opened
    split <;> simp_all
  have first : (if !s.episodeStarted then s.startEpisode succeeding 0 else .ok s) =
      .ok s.opened := by
    unfold opened
    cases isStarted : s.episodeStarted with
    | true => rfl
    | false => simp [startEpisode, isStarted, call_succeeding, bind, Except.bind]
  have sequence : s.processBoundary succeeding config logTime =
      (if !s.episodeStarted then s.startEpisode succeeding 0 else .ok s).bind fun s =>
        if s.atBoundary config logTime then
          (s.finishEpisode succeeding).bind fun s => s.startEpisode succeeding (s.episodeIndex + 1)
        else .ok s := by
    unfold processBoundary
    cases s.episodeStarted <;> rfl
  rw [sequence, first, Except.bind]
  split
  · simp [finishEpisode, startEpisode, started, call_succeeding, bind, Except.bind, turned]
  · rfl

/-- The executor in an episode, after finished ones and with the frames of messages. -/
structure Counted (config : DatasetPipelineConfig) (before : List (TimestampedMessage Value))
    (closed : List (List (AlignedFrame Value))) (frames : List (AlignedFrame Value))
    (s : Executor Value) : Prop where
  started : s.episodeStarted = true
  settled : s.Settled
  log : s.log = episodeLog closed.length frames ++ closedLog closed
  index : s.episodeIndex = closed.length
  frameIndex : s.frameIndex = (messageFrames config 0 before).length
  framesWritten : s.framesWritten = (messageFrames config 0 before).length
  images : s.framesInEpisode = frames.countP fun frame => !frame.images.entries.isEmpty
  all : closed.reverse.flatten ++ frames = messageFrames config 0 before
  alone : Alone (closed.reverse ++ [frames]) ↔ Together config before

/-- Between messages. -/
structure Placed (config : DatasetPipelineConfig) (before : List (TimestampedMessage Value))
    (closed : List (List (AlignedFrame Value))) (frames : List (AlignedFrame Value))
    (s : Executor Value) : Prop extends Counted config before closed frames s where
  last : s.lastTimestampNs = before.getLast?.map (·.logTime)
  broken : (∃ other ∈ closed, other ≠ []) ↔ Broken config before

variable {config : DatasetPipelineConfig} {before : List (TimestampedMessage Value)}
variable {closed : List (List (AlignedFrame Value))} {frames : List (AlignedFrame Value)}
variable {s : Executor Value}

/-- While the finished episodes are empty, the executor's boundary is the strategy's. -/
theorem Placed.atBoundary_iff (placed : Placed config before closed frames s)
    (blank : ∀ other ∈ closed, other = []) (msg : TimestampedMessage Value) :
    s.atBoundary config msg.logTime = true ↔ EndsEpisode config before msg := by
  have whole : frames = messageFrames config 0 before := by
    have nothing : closed.reverse.flatten = [] := by
      rw [List.flatten_eq_nil_iff]
      exact fun other member => blank other (List.mem_reverse.mp member)
    rw [← placed.all, nothing, List.nil_append]
  unfold Executor.atBoundary EndsEpisode
  cases config.episodeStrategy with
  | single => simp
  | gapBased thresholdNs =>
    simp only [crossesGap, placed.last]
    cases before.getLast? <;> simp
  | frameCount maxFrames =>
    simp only [placed.images, whole, messageFrames_images, decide_eq_true_eq]

theorem Counted.turned (counted : Counted config before closed frames s) :
    Counted config before (frames :: closed) [] s.turned where
  started := rfl
  settled := ⟨counted.settled.buffer, counted.settled.current⟩
  log := by
    simp only [Executor.turned, counted.log, counted.index, closedLog, episodeLog, List.map_nil,
      List.reverse_nil, List.nil_append, List.length_cons, List.cons_append]
  index := congrArg (· + 1) counted.index
  frameIndex := counted.frameIndex
  framesWritten := counted.framesWritten
  images := rfl
  all := by
    rw [← counted.all]
    simp
  alone := by
    rw [← counted.alone, List.reverse_cons, alone_concat]
    simp

/-- The boundary before a message. -/
theorem Placed.boundary (placed : Placed config before closed frames s)
    (msg : TimestampedMessage Value) :
    ∃ closed' frames', Counted config before closed' frames'
        (if s.atBoundary config msg.logTime then s.turned else s) ∧
      ((∃ other ∈ closed', other ≠ []) ↔ Broken config (before ++ [msg])) := by
  have some_ : (∃ other ∈ frames :: closed, other ≠ []) ↔ before.any (convertible config) := by
    have whole := messageFrames_eq_nil config 0 before
    rw [← placed.all, List.append_eq_nil_iff, List.flatten_eq_nil_iff] at whole
    rw [← Bool.not_eq_false, ← whole]
    simp only [List.mem_cons, exists_eq_or_imp, List.mem_reverse, not_and_or]
    push Not
    exact or_comm
  rw [broken_concat]
  by_cases early : ∃ other ∈ closed, other ≠ []
  · -- an earlier episode has frames, and so have the finished ones after this boundary
    have isBroken := placed.broken.mp early
    split
    · obtain ⟨other, member, full⟩ := early
      exact ⟨frames :: closed, [], placed.turned,
        ⟨fun _ => .inl isBroken, fun _ => ⟨other, List.mem_cons_of_mem _ member, full⟩⟩⟩
    · exact ⟨closed, frames, placed.toCounted, ⟨fun _ => .inl isBroken, fun _ => early⟩⟩
  · have unbroken := fun isBroken => early (placed.broken.mpr isBroken)
    have blank : ∀ other ∈ closed, other = [] := by
      push Not at early
      exact early
    have ends := placed.atBoundary_iff blank msg
    split
    · rename_i here
      refine ⟨frames :: closed, [], placed.turned, ?_⟩
      rw [some_]
      exact ⟨fun given => .inr ⟨given, ends.mp here⟩,
        fun given => (given.resolve_left unbroken).1⟩
    · rename_i notHere
      refine ⟨closed, frames, placed.toCounted, ⟨fun given => absurd given early, ?_⟩⟩
      intro given
      exact absurd (ends.mpr (given.resolve_left unbroken).2) notHere

/-- The message after its boundary. -/
theorem Counted.accept (counted : Counted config before closed frames s)
    (msg : TimestampedMessage Value)
    (broken : (∃ other ∈ closed, other ≠ []) ↔ Broken config (before ++ [msg])) :
    ∃ s' frames', ({ s with lastTimestampNs := some msg.logTime }).accept succeeding config msg =
      .ok s' ∧ Placed config (before ++ [msg]) closed frames' s' := by
  have settled : Settled { s with lastTimestampNs := some msg.logTime } :=
    ⟨counted.settled.buffer, counted.settled.current⟩
  obtain ⟨s', ran, settled', took⟩ := accept_took config settled msg
  let frame := messageFrame config s.frameIndex msg
  have more : messageFrames config 0 (before ++ [msg]) =
      messageFrames config 0 before ++ frame.toList := by
    rw [messageFrames_concat, Nat.zero_add, ← counted.frameIndex]
  have longer : (messageFrames config 0 (before ++ [msg])).length =
      (messageFrames config 0 before).length + frame.toList.length := by
    rw [more, List.length_append]
  refine ⟨s', frames ++ frame.toList, ran, ⟨⟨took.episodeStarted.trans counted.started, settled',
    ?_, took.episodeIndex.trans counted.index, ?_, ?_, ?_, ?_, ?_⟩, ?_, broken⟩⟩
  · rw [took.log, counted.log, ← List.append_assoc, episodeLog_take]
  · rw [took.frameIndex, longer, ← counted.frameIndex]
  · rw [took.framesWritten, longer, ← counted.framesWritten]
  · rw [took.framesInEpisode, counted.images, List.countP_append]
  · rw [more, ← counted.all, List.append_assoc]
  · have own := messageFrame_isSome config s.frameIndex msg
    rw [together_concat, ← broken, ← counted.alone]
    by_cases none_ : frame.toList = []
    · have unconverted : convertible config msg = false := own.mp none_
      simp [none_, unconverted]
    · have isConverted : convertible config msg = true := by
        rw [← Bool.not_eq_false, ← own]
        exact none_
      rw [alone_extended none_]
      simp [isConverted]
  · rw [took.lastTimestampNs]
    simp

/-- One message below the limit on frames. -/
theorem Placed.processMessage (placed : Placed config before closed frames s.opened)
    (below : s.atFrameLimit config = false) (msg : TimestampedMessage Value) :
    ∃ s' closed' frames', s.processMessage succeeding config msg = .ok s' ∧
      Placed config (before ++ [msg]) closed' frames' s' := by
  obtain ⟨closed', frames', counted, broken⟩ := placed.boundary msg
  have counted' : Counted config before closed' frames'
      { (if s.opened.atBoundary config msg.logTime then s.opened.turned else s.opened) with
        messagesProcessed := s.messagesProcessed + 1 } :=
    ⟨counted.started, ⟨counted.settled.buffer, counted.settled.current⟩, counted.log,
      counted.index, counted.frameIndex, counted.framesWritten, counted.images, counted.all,
      counted.alone⟩
  obtain ⟨s', frames'', ran, placed'⟩ := counted'.accept msg broken
  refine ⟨s', closed', frames'', ?_, placed'⟩
  rw [processMessage_eq, below, processBoundary_succeeding, ← ran]
  have same : ({ s with messagesProcessed := s.messagesProcessed + 1 }).opened =
      { s.opened with messagesProcessed := s.messagesProcessed + 1 } := by
    unfold opened
    split <;> rfl
  rw [same]
  have boundary : ({ s.opened with messagesProcessed := s.messagesProcessed + 1 }).atBoundary config
      msg.logTime = s.opened.atBoundary config msg.logTime := rfl
  rw [boundary]
  cases s.opened.atBoundary config msg.logTime <;> rfl

theorem opened_new : Placed config [] [] [] (Executor.new : Executor Value).opened where
  started := rfl
  settled := ⟨rfl, rfl⟩
  log := rfl
  index := rfl
  frameIndex := rfl
  framesWritten := rfl
  images := rfl
  all := rfl
  alone := by simp [Alone, Together]
  last := rfl
  broken := by simp [Broken]

theorem processed_limited (limited : config.maxFrames.any (· ≤ seen) = true)
    (messages : List (TimestampedMessage Value)) : processed config seen messages = [] := by
  cases messages with
  | nil => rfl
  | cons msg rest => rw [processed, if_pos limited]

theorem opened_of_started (started : s.episodeStarted = true) : s.opened = s := by
  unfold opened
  rw [if_pos started]

/-- Every message of a run, up to the limit on frames. -/
theorem Placed.run (placed : Placed config before closed frames s.opened)
    (begun : s.episodeStarted = true ∨ before = [] ∧ s.log = [])
    (messages : List (TimestampedMessage Value)) :
    let s' := messages.foldl (fun s msg => reached (s.processMessage succeeding config msg)) s
    let after := before ++ processed config (messageFrames config 0 before).length messages
    ∃ closed' frames', Placed config after closed' frames' s'.opened ∧
      (s'.episodeStarted = true ∨ after = [] ∧ s'.log = []) := by
  induction messages generalizing before closed frames s with
  | nil =>
    rw [processed, List.append_nil]
    exact ⟨closed, frames, placed, begun⟩
  | cons msg rest ih =>
    have written : s.framesWritten = (messageFrames config 0 before).length := by
      rw [← placed.framesWritten]
      unfold opened
      split <;> rfl
    have limit : s.atFrameLimit config =
        config.maxFrames.any (· ≤ (messageFrames config 0 before).length) := by
      unfold atFrameLimit
      rw [written]
      cases config.maxFrames <;> rfl
    simp only [List.foldl_cons]
    by_cases limited : s.atFrameLimit config = true
    · -- the message is counted and nothing else
      have counted : reached (s.processMessage succeeding config msg) =
          { s with messagesProcessed := s.messagesProcessed + 1 } := by
        rw [processMessage_eq, if_pos limited, reached_ok]
      have same : ({ s with messagesProcessed := s.messagesProcessed + 1 }).opened =
          { s.opened with messagesProcessed := s.messagesProcessed + 1 } := by
        unfold opened
        split <;> rfl
      have placed' : Placed config before closed frames
          ({ s with messagesProcessed := s.messagesProcessed + 1 }).opened := by
        rw [same]
        exact ⟨⟨placed.started, ⟨placed.settled.buffer, placed.settled.current⟩, placed.log,
          placed.index, placed.frameIndex, placed.framesWritten, placed.images, placed.all,
          placed.alone⟩, placed.last, placed.broken⟩
      have later := ih placed' begun
      rw [limit] at limited
      rw [processed_limited limited] at later ⊢
      rw [counted]
      exact later
    · obtain ⟨s₁, closed₁, frames₁, ran, placed₁⟩ :=
        placed.processMessage (by simpa using limited) msg
      have later := ih (by rwa [opened_of_started placed₁.started]) (.inl placed₁.started)
      have seen : (messageFrames config 0 (before ++ [msg])).length =
          (messageFrames config 0 before).length + if convertible config msg then 1 else 0 := by
        have own := messageFrame_isSome config (messageFrames config 0 before).length msg
        rw [messageFrames_concat, Nat.zero_add, List.length_append]
        cases found : messageFrame config (messageFrames config 0 before).length msg with
        | none => simp_all
        | some frame => simp_all
      rw [limit] at limited
      rw [seen, List.append_assoc] at later
      rw [processed, if_neg limited, ran, reached_ok]
      exact later

end Executor

/-! ### The rows of a run -/

/-- The log of a run, finalized in any drain order: finished episodes that hold the
frames of the messages, and stand alone where the messages are together. -/
theorem finalized_log {config : DatasetPipelineConfig}
    {messages : List (TimestampedMessage Value)}
    {remaining : List (Nat × List (TimestampedMessage Value))}
    (drained : remaining.Perm (Executor.after succeeding config messages).messageBuffer.entries) :
    ∃ closed, (reached ((Executor.after succeeding config messages).finalize succeeding config
        remaining)).log = (.finalize, true) :: closedLog closed ∧
      closed.reverse.flatten = messageFrames config 0 (processed config 0 messages) ∧
      (Alone closed.reverse ↔ Together config (processed config 0 messages)) := by
  have fresh : Executor.Placed config [] [] [] (Executor.new : Executor Value).opened :=
    Executor.opened_new
  obtain ⟨closed, frames, placed, begun⟩ := fresh.run (.inr ⟨rfl, rfl⟩) messages
  change Executor.Placed config (processed config 0 messages) closed frames
    (Executor.after succeeding config messages).opened at placed
  change (Executor.after succeeding config messages).episodeStarted = true ∨
    processed config 0 messages = [] ∧ (Executor.after succeeding config messages).log = [] at begun
  generalize Executor.after succeeding config messages = s at *
  have buffer : s.messageBuffer = .empty := by
    rw [← placed.settled.buffer]
    unfold Executor.opened
    split <;> rfl
  have nothing : remaining = [] := by
    rw [buffer] at drained
    exact drained.eq_nil
  subst nothing
  rcases begun with started | ⟨none_, blank⟩
  · rw [Executor.opened_of_started started] at placed
    refine ⟨frames :: closed, ?_, ?_, ?_⟩
    · rw [closedLog, ← placed.log, Executor.finalize_eq]
      simp [Executor.drain, started, Executor.finishEpisode, Executor.call_succeeding, bind,
        Except.bind, pure, Except.pure]
    · rw [← placed.all]
      simp
    · rw [← placed.alone, List.reverse_cons]
  · refine ⟨[], ?_, ?_, ?_⟩
    · cases started : s.episodeStarted with
      | false =>
        rw [Executor.finalize_eq]
        simp [Executor.drain, started, Executor.call_succeeding, Except.bind, pure, Except.pure,
          blank, closedLog]
      | true =>
        rw [Executor.opened_of_started started] at placed
        have logged := placed.log
        rw [blank] at logged
        simp [episodeLog] at logged
    · rw [none_]
      rfl
    · rw [none_]
      simp [Alone, Together]

/-- The rows follow the format exactly when no frame precedes an episode's and the
times of each episode start at 0 and do not decrease. -/
theorem rowsFollowFormat_iff [Zero Value] {start final : LerobotWriter Value}
    {closed : List (List (AlignedFrame Value))} (ready : start.Ready)
    (ran : replay start ((.finalize, true) :: closedLog closed) = .ok final)
    (counted : closed.reverse.flatten.map (·.frameIndex) =
      List.range closed.reverse.flatten.length) :
    RowsFollowFormat start ((.finalize, true) :: closedLog closed) final ↔
      ∀ before frames after, closed.reverse = before ++ frames :: after → frames ≠ [] →
        before.flatten = [] ∧ (∀ first ∈ frames.head?, first.timestamp = 0) ∧
          (frames.map (·.timestamp)).Pairwise (· ≤ ·) := by
  have shown : episodesOf ((.finalize, true) :: closedLog closed) = episodesOf (closedLog closed) :=
    rfl
  obtain ⟨allFrames, -⟩ := episodesOf_closedLog closed
  obtain ⟨w, closedRan, finalRan⟩ : ∃ w, replay start (closedLog closed) = .ok w ∧
      answer w .finalize = .ok final := by
    rw [replay] at ran
    cases found : replay start (closedLog closed) with
    | error e =>
      rw [found] at ran
      cases ran
    | ok w =>
      rw [found] at ran
      exact ⟨w, rfl, ran⟩
  have filed := replay_closedLog ready closedRan
  -- one episode: its file holds rows that follow the format under the condition
  have each : ∀ before frames after, closed.reverse = before ++ frames :: after → frames ≠ [] →
      ∃ rows, final.parquetFiles.get (parquetPath (start.chunkOf before.length) before.length) =
        some rows ∧ (FollowsFormat (before.map List.length).sum frames rows ↔
          before.flatten = [] ∧ (∀ first ∈ frames.head?, first.timestamp = 0) ∧
            (frames.map (·.timestamp)).Pairwise (· ≤ ·)) := by
    intro before frames after split some_
    have place : closed = after.reverse ++ frames :: before.reverse := by
      rw [← List.reverse_reverse closed, split]
      simp
    obtain ⟨rows, made, found⟩ := filed.files _ _ _ place some_
    rw [List.length_reverse] at made found
    rw [← filed.finalize finalRan] at found
    refine ⟨rows, found, ?_⟩
    have own : frames.map (·.frameIndex) = List.range' before.flatten.length frames.length := by
      rw [split, List.flatten_append, List.flatten_cons, List.range_eq_range'] at counted
      simp only [List.map_append, List.length_append] at counted
      rw [← List.range'_append_1, ← List.range'_append_1, Nat.zero_add] at counted
      have later := (List.append_inj counted (by rw [List.length_map, List.length_range'])).2
      exact (List.append_inj later (by rw [List.length_map, List.length_range'])).1
    rw [← List.length_flatten, followsFormat_iff (episodeRows_columns made) some_ own,
      List.length_eq_zero_iff]
  constructor
  · intro follows before frames after split some_
    obtain ⟨rows, found, iff⟩ := each before frames after split some_
    apply iff.mp
    rw [← allFrames] at split
    obtain ⟨before', rest, whole, rfl, tail⟩ := List.map_eq_append_iff.mp split
    obtain ⟨⟨index, _⟩, after', rfl, rfl, rfl⟩ := List.map_eq_cons_iff.mp tail
    obtain ⟨rows', found', own⟩ := follows before' index _ after' (shown.trans whole) some_
    have number := (episodesOf_place whole).1
    rw [List.length_map, ← number, found'] at found
    cases found
    rwa [List.map_map]
  · intro condition before index frames after split some_
    obtain ⟨number, place⟩ := episodesOf_place (shown.symm.trans split)
    obtain ⟨rows, found, iff⟩ := each _ frames _ place some_
    rw [List.length_map, ← number] at found
    refine ⟨rows, found, ?_⟩
    have own := iff.mpr (condition _ frames _ place some_)
    rwa [List.map_map] at own

theorem head_zero_iff (f : α → Nat) (xs : List α) :
    (∀ first ∈ xs.head?, f first = 0) ↔ ∀ t ∈ (xs.map f).head?, t = 0 := by
  cases xs <;> simp

/-- For every message sequence, every strategy and frame limit, every drain order, and
every writer that the calls succeed on: the rows follow the format exactly when the
messages up to the limit are of one episode that starts at time 0 and does not go back. -/
theorem rows_follow_format_iff_one_episode [Zero Value] (config : DatasetPipelineConfig)
    (messages : List (TimestampedMessage Value))
    (remaining : List (Nat × List (TimestampedMessage Value)))
    (drained : remaining.Perm (Executor.after succeeding config messages).messageBuffer.entries)
    (flushing : FlushingConfig) (decode : Decoder) (perChunk : ℕ+) (index : Nat)
    (final : LerobotWriter Value)
    (calls : replay (localWriter flushing decode perChunk index)
      (reached ((Executor.after succeeding config messages).finalize succeeding config
        remaining)).log = .ok final) :
    RowsFollowFormat (localWriter flushing decode perChunk index)
        (reached ((Executor.after succeeding config messages).finalize succeeding config
          remaining)).log final ↔
      OneEpisodeFromZero config (processed config 0 messages) := by
  obtain ⟨closed, log, all, alone⟩ := finalized_log drained
  rw [log] at calls ⊢
  have counted : closed.reverse.flatten.map (·.frameIndex) =
      List.range closed.reverse.flatten.length := by
    rw [all, messageFrames_frameIndex, List.range_eq_range']
  have times : (messageFrames config 0 (processed config 0 messages)).map (·.timestamp) =
      ((processed config 0 messages).filter (convertible config)).map
        fun msg => Executor.alignedTimestamp config msg.logTime :=
    messageFrames_timestamps config 0 (processed config 0 messages)
  have heads : (∀ first ∈ (messageFrames config 0 (processed config 0 messages)).head?,
        first.timestamp = 0) ↔
      ∀ first ∈ ((processed config 0 messages).filter (convertible config)).head?,
        Executor.alignedTimestamp config first.logTime = 0 := by
    refine (head_zero_iff AlignedFrame.timestamp _).trans ?_
    rw [times]
    exact (head_zero_iff (fun msg : TimestampedMessage Value =>
      Executor.alignedTimestamp config msg.logTime) _).symm
  rw [rowsFollowFormat_iff Lerobot.localWriter_ready calls counted]
  constructor
  · intro condition
    have single : Alone closed.reverse := alone_iff.mpr fun before frames after split some_ =>
      (condition before frames after split some_).1
    have whole : messageFrames config 0 (processed config 0 messages) = [] ∨
        ∃ before frames after, closed.reverse = before ++ frames :: after ∧ frames ≠ [] ∧
          messageFrames config 0 (processed config 0 messages) = frames := by
      by_cases blank : closed.reverse.flatten = []
      · exact .inl (all ▸ blank)
      · rw [List.flatten_eq_nil_iff] at blank
        push Not at blank
        obtain ⟨frames, member, some_⟩ := blank
        obtain ⟨before, after, split⟩ := List.append_of_mem member
        refine .inr ⟨before, frames, after, split, some_, ?_⟩
        rw [← all, split]
        exact Alone.flatten (split ▸ single) some_
    refine ⟨alone.mp single, ?_, ?_⟩
    · apply heads.mp
      rcases whole with blank | ⟨before, frames, after, split, some_, same⟩
      · simp [blank]
      · rw [same]
        exact (condition before frames after split some_).2.1
    · rw [← times]
      rcases whole with blank | ⟨before, frames, after, split, some_, same⟩
      · simp [blank]
      · rw [same]
        exact (condition before frames after split some_).2.2
  · intro one before frames after split some_
    have single := alone.mpr one.together
    have whole : frames = messageFrames config 0 (processed config 0 messages) := by
      rw [← all, split]
      exact (Alone.flatten (split ▸ single) some_).symm
    refine ⟨alone_iff.mp single before frames after split some_, ?_, ?_⟩
    · rw [whole]
      exact heads.mpr one.fromZero
    · rw [whole, times]
      exact one.ordered

/-- The log of the messages after `finalize`, where the writer succeeds. -/
def recording (config : DatasetPipelineConfig) (messages : List (TimestampedMessage Nat)) :
    WriterLog Nat :=
  (reached ((Executor.after succeeding config messages).finalize succeeding config [])).log

theorem replay_ok (w : LerobotWriter Nat) (log : WriterLog Nat)
    (succeeds : (replay w log).toOption.isSome = true) : ∃ final, replay w log = .ok final := by
  cases found : replay w log with
  | error e => simp [found, Except.toOption] at succeeds
  | ok final => exact ⟨final, rfl⟩

/-- Two frames of one episode, from time 0 on. -/
theorem one_episode_follows_format :
    ∃ final, replay Lerobot.plainWriter (recording tenNanoseconds [armState 3, armState 17]) =
        .ok final ∧
      RowsFollowFormat Lerobot.plainWriter (recording tenNanoseconds [armState 3, armState 17])
        final := by
  obtain ⟨final, calls⟩ := replay_ok Lerobot.plainWriter
    (recording tenNanoseconds [armState 3, armState 17]) (by decide +kernel)
  refine ⟨final, calls, ?_⟩
  have drained : List.Perm [] (Executor.after succeeding tenNanoseconds
      [armState 3, armState 17]).messageBuffer.entries :=
    .of_eq (List.length_eq_zero_iff.mp (by decide)).symm
  refine (rows_follow_format_iff_one_episode tenNanoseconds [armState 3, armState 17] [] drained
    ⟨0, 0⟩ (fun _ => none) 500 0 final calls).mpr ⟨?_, ?_, ?_⟩
  · intro before msg after _ _ _ ends
    exact ends
  · decide
  · decide

/-- Messages with a gap between them are of two episodes. -/
def gapOfTwenty : DatasetPipelineConfig := { tenNanoseconds with episodeStrategy := .gapBased 20 }

/-- The only row of the second episode has the number 1 and the time of the recording. -/
theorem second_episode_not_from_zero :
    ∃ final, replay Lerobot.plainWriter (recording gapOfTwenty [armState 3, armState 57]) =
        .ok final ∧
      (final.parquetFiles.get (parquetPath 0 1)).map (fun rows =>
        rows.map fun row => (row.frameIndex, row.index, row.timestamp)) = some [(1, 1, 50)] ∧
      ¬RowsFollowFormat Lerobot.plainWriter (recording gapOfTwenty [armState 3, armState 57])
        final := by
  obtain ⟨final, calls⟩ := replay_ok Lerobot.plainWriter
    (recording gapOfTwenty [armState 3, armState 57]) (by decide +kernel)
  have written : (replay Lerobot.plainWriter
      (recording gapOfTwenty [armState 3, armState 57])).toOption.map (fun final =>
        (final.parquetFiles.get (parquetPath 0 1)).map fun rows =>
          rows.map fun row => (row.frameIndex, row.index, row.timestamp)) =
        some (some [(1, 1, 50)]) := by
    decide +kernel
  rw [calls] at written
  have columns : (final.parquetFiles.get (parquetPath 0 1)).map (fun rows =>
      rows.map fun row => (row.frameIndex, row.index, row.timestamp)) = some [(1, 1, 50)] :=
    Option.some.inj written
  refine ⟨final, calls, columns, ?_⟩
  intro follows
  have shape : (episodesOf (recording gapOfTwenty [armState 3, armState 57])).map
      (fun episode => (episode.1, episode.2.length)) = [(0, 1), (1, 1)] := by
    decide +kernel
  obtain ⟨first, rest, split, -, tail⟩ := List.map_eq_cons_iff.mp shape
  obtain ⟨second, rest', rfl, two, -⟩ := List.map_eq_cons_iff.mp tail
  obtain ⟨index, frames⟩ := second
  simp only [Prod.mk.injEq] at two
  obtain ⟨rfl, one⟩ := two
  obtain ⟨rows, found, format⟩ := follows [first] 1 frames rest' split (by
    rintro rfl
    cases one)
  have found' : final.parquetFiles.get (parquetPath 0 1) = some rows := found
  rw [found'] at columns
  have numbers := congrArg (List.map fun column => column.1) (Option.some.inj columns)
  rw [List.map_map] at numbers
  have fromOne : rows.map (·.frameIndex) = [1] := numbers
  rw [format.frameIndex, one] at fromOne
  cases fromOne

end Roboflow.Pipeline
