import Roboflow.Library.UnixPath
import Roboflow.Lerobot.ParquetColumns

/-! The video paths in the rows of an episode against the paths of its video files. A
camera's directory is joined to the chunk's by `encode_videos` and formatted into one text
everywhere else, so files are compared as paths here, below any output directory. -/
namespace Roboflow.Lerobot
open Library Library.UnixPath
open Roboflow.Alignment (AlignedFrame ImageData)

/-! ### Where videos are written -/

def episodeFileName (episode : Nat) : String := "episode_" ++ padded 6 episode ++ ".mp4"

/-- `videos_chunk_dir`, the camera's directory in it, and the episode's file in that. -/
def encodedVideoFile (outputDir : List PathComponent) (chunk : Nat) (camera : String)
    (episode : Nat) : List PathComponent :=
  let videosDir := join (join outputDir (components "videos".toList))
    (components (chunkDirName chunk).toList)
  join (join videosDir (components camera.toList)) (components (episodeFileName episode).toList)

/-- What a path relative to the dataset's root names. -/
def datasetFile (outputDir : List PathComponent) (path : String) : List PathComponent :=
  join outputDir (components path.toList)

/-- `segment_dir`, the camera's directory in it, and the file in that. -/
def segmentFile (sessionDir : List PathComponent) (segment : Nat) (camera : String) :
    List PathComponent :=
  let segmentDir := join sessionDir (components ("segment_" ++ padded 4 segment).toList)
  join (join segmentDir (components camera.toList)) (components "segment.mp4".toList)

variable {Value : Type}

namespace LerobotWriter

/-- The camera has pictures that `encode_videos` writes. -/
def Encodes (w : LerobotWriter Value) (camera : String) : Prop :=
  ∃ pictures, (camera, pictures) ∈ w.encodable

/-- The camera has segments that `merge_pending_segments` joins. -/
def Merges (w : LerobotWriter Value) (camera : String) : Prop :=
  ∃ segments ≠ [], (camera, segments) ∈ w.pendingSegments.entries

/-- The files the camera's video is written to for the current episode. -/
inductive WritesVideo (w : LerobotWriter Value) (outputDir : List PathComponent) (camera : String) :
    List PathComponent → Prop where
  | encoded (encodes : w.Encodes camera) :
      WritesVideo w outputDir camera
        (encodedVideoFile outputDir w.chunkIndex camera w.episodeIndex)
  | merged (merges : w.Merges camera) :
      WritesVideo w outputDir camera
        (datasetFile outputDir (videoPath w.chunkIndex camera w.episodeIndex))

end LerobotWriter

/-- The camera's path in each row is that of each file its video is written to. -/
def PathsNameVideo (w : LerobotWriter Value) (outputDir : List PathComponent)
    (rows : List (ParquetRow Value)) (camera : String) : Prop :=
  ∀ row ∈ rows, ∀ path time, (camera, path, time) ∈ row.imageFrames →
    ∀ file, w.WritesVideo outputDir camera file → datasetFile outputDir path = file

/-! ### Components -/

theorem slash_not_mem_chunkDirName (chunk : Nat) : '/' ∉ (chunkDirName chunk).toList := by
  rw [chunkDirName, String.toList_append, List.mem_append]
  rintro (start | digits)
  · exact absurd start (by decide)
  · exact slash_not_mem_padded 3 chunk digits

theorem slash_not_mem_episodeFileName (episode : Nat) : '/' ∉ (episodeFileName episode).toList := by
  rw [episodeFileName, String.toList_append, String.toList_append, List.mem_append, List.mem_append]
  rintro ((start | digits) | extension)
  · exact absurd start (by decide)
  · exact slash_not_mem_padded 6 episode digits
  · exact absurd extension (by decide)

/-- A path of names is put behind any directory. -/
theorem join_normal (base : List PathComponent) {path : List PathComponent}
    (relative : path.head? ≠ some .rootDir) (inner : .curDir ∉ path) : join base path = base ++ path := by
  have kept : path.filter (· ≠ .curDir) = path := by
    rw [List.filter_eq_self]
    intro component member
    have other : component ≠ .curDir := fun same => inner (same ▸ member)
    simpa using other
  unfold join
  split
  · rename_i plain
    rw [plain.resolve_left relative, List.nil_append]
  · rw [kept]

/-- The directory of a chunk's videos. -/
def chunkDir (outputDir : List PathComponent) (chunk : Nat) : List PathComponent :=
  outputDir ++ [.normal "videos".toList, .normal (chunkDirName chunk).toList]

theorem chunkDirName_long (chunk : Nat) : 2 < (chunkDirName chunk).toList.length := by
  rw [chunkDirName, String.toList_append, List.length_append]
  simp
  omega

theorem episodeFileName_long (episode : Nat) : 2 < (episodeFileName episode).toList.length := by
  rw [episodeFileName, String.toList_append, String.toList_append, List.length_append,
    List.length_append]
  simp

theorem encodedVideoFile_eq (outputDir : List PathComponent) (chunk : Nat) (camera : String)
    (episode : Nat) :
    encodedVideoFile outputDir chunk camera episode =
      (if camera.toList.head? = some '/' then .rootDir :: parts camera.toList
        else chunkDir outputDir chunk ++ parts camera.toList) ++
      [.normal (episodeFileName episode).toList] := by
  have videos : components "videos".toList = [.normal "videos".toList] :=
    components_name (by decide) (by decide)
  have dir : join (join outputDir (components "videos".toList))
      (components (chunkDirName chunk).toList) = chunkDir outputDir chunk := by
    rw [videos, components_name (slash_not_mem_chunkDirName chunk) (chunkDirName_long chunk),
      join_normal _ (by simp) (by simp), join_normal _ (by simp) (by simp), chunkDir,
      List.append_assoc]
    rfl
  have nonempty : chunkDir outputDir chunk ≠ [] := by simp [chunkDir]
  rw [encodedVideoFile, dir,
    components_name (slash_not_mem_episodeFileName episode) (episodeFileName_long episode),
    join_normal _ (by simp) (by simp)]
  split
  · rename_i absolute
    rw [join, components, if_pos absolute]
    rfl
  · rename_i relative
    rw [join_parts nonempty relative]

theorem datasetFile_eq (outputDir : List PathComponent) (chunk : Nat) (camera : String)
    (episode : Nat) :
    datasetFile outputDir (videoPath chunk camera episode) =
      chunkDir outputDir chunk ++ parts camera.toList ++
        [.normal (episodeFileName episode).toList] := by
  have text : (videoPath chunk camera episode).toList = "videos".toList ++ '/' ::
      ((chunkDirName chunk).toList ++ '/' ::
        (camera.toList ++ '/' :: (episodeFileName episode).toList)) := by
    have first : "videos/".toList = "videos".toList ++ ['/'] := by decide
    have second : "/".toList = ['/'] := by decide
    have third : "/episode_".toList = '/' :: "episode_".toList := by decide
    simp only [videoPath, episodeFileName, String.toList_append, first, second, third,
      List.append_assoc, List.cons_append, List.nil_append]
  have named : parts (videoPath chunk camera episode).toList =
      .normal "videos".toList :: .normal (chunkDirName chunk).toList ::
        (parts camera.toList ++ [.normal (episodeFileName episode).toList]) := by
    rw [text, parts_append_slash, parts_append_slash, parts_append_slash,
      parts_name (by decide) (by decide),
      parts_name (slash_not_mem_chunkDirName chunk) (chunkDirName_long chunk),
      parts_name (slash_not_mem_episodeFileName episode) (episodeFileName_long episode)]
    rfl
  have whole : components (videoPath chunk camera episode).toList =
      parts (videoPath chunk camera episode).toList := by
    have head : (videoPath chunk camera episode).toList.head? ≠ some '/' := by
      rw [text]
      simp
    have segment : ((videoPath chunk camera episode).toList.splitOn '/').head? ≠ some ['.'] := by
      rw [text, List.splitOn_append_cons_self, List.splitOn_eq_singleton (by decide)]
      simp
    rw [components, if_neg head, if_neg segment]
  rw [datasetFile, whole, join_normal _ (by rw [named]; simp)
    (curDir_not_mem_parts _), named, chunkDir]
  simp only [List.append_assoc, List.cons_append, List.nil_append]

/-! ### When they are the same -/

/-- Paths below different chunks are different files. -/
theorem datasetFile_inj_chunk {outputDir : List PathComponent} {chunk chunk' : Nat} {camera : String}
    {episode : Nat} (same : datasetFile outputDir (videoPath chunk camera episode) =
      datasetFile outputDir (videoPath chunk' camera episode)) : chunk = chunk' := by
  rw [datasetFile_eq, datasetFile_eq, List.append_left_inj, List.append_left_inj, chunkDir, chunkDir,
    List.append_right_inj] at same
  simp only [List.cons.injEq, PathComponent.normal.injEq, true_and, and_true] at same
  have names := String.toList_injective same
  exact padded_injective ((String.append_right_inj _).mp names)

theorem encodedVideoFile_iff (outputDir : List PathComponent) (recorded chunk : Nat)
    (camera : String) (episode : Nat) :
    datasetFile outputDir (videoPath recorded camera episode) =
        encodedVideoFile outputDir chunk camera episode ↔
      recorded = chunk ∧ camera.toList.head? ≠ some '/' := by
  by_cases absolute : camera.toList.head? = some '/'
  · refine iff_of_false (fun same => ?_) (by simp [absolute])
    rw [encodedVideoFile_eq, if_pos absolute, datasetFile_eq, List.append_left_inj] at same
    have lengths := congrArg List.length same
    simp only [chunkDir, List.length_append, List.length_cons, List.length_nil] at lengths
    omega
  · have relative : encodedVideoFile outputDir chunk camera episode =
        datasetFile outputDir (videoPath chunk camera episode) := by
      rw [encodedVideoFile_eq, if_neg absolute, datasetFile_eq]
    rw [relative]
    constructor
    · exact fun same => ⟨datasetFile_inj_chunk same, absolute⟩
    · rintro ⟨rfl, -⟩
      rfl

/-! ### Cameras in directories of their own -/

/-- Names that are directories of their own below any directory: none is absolute, none
leads out of it, and different names are different as paths. -/
structure NamesApart (cameras : Set String) : Prop where
  relative : ∀ camera ∈ cameras, camera.toList.head? ≠ some '/'
  inside : ∀ camera ∈ cameras, .parentDir ∉ parts camera.toList
  distinct : ∀ camera ∈ cameras, ∀ other ∈ cameras,
    parts camera.toList = parts other.toList → camera = other

/-- The texts the writer's files are kept under stand for the files: no path leads out of the
dataset, two are equal exactly where the files are one, and the video that is encoded is the
one that is merged. -/
structure KeysAreFiles (cameras : Set String) : Prop where
  inside : ∀ camera ∈ cameras, ∀ chunk episode,
    .parentDir ∉ datasetFile [] (videoPath chunk camera episode)
  segments : ∀ sessionDir, ∀ camera ∈ cameras, ∀ other ∈ cameras, ∀ i j,
    segmentFile sessionDir i camera = segmentFile sessionDir j other ↔
      segmentPath i camera = segmentPath j other
  encoded : ∀ outputDir, ∀ camera ∈ cameras, ∀ chunk episode,
    encodedVideoFile outputDir chunk camera episode =
      datasetFile outputDir (videoPath chunk camera episode)
  videos : ∀ outputDir, ∀ camera ∈ cameras, ∀ other ∈ cameras, ∀ chunk episode chunk' episode',
    datasetFile outputDir (videoPath chunk camera episode) =
        datasetFile outputDir (videoPath chunk' other episode') ↔
      videoPath chunk camera episode = videoPath chunk' other episode'

theorem segmentFile_eq (sessionDir : List PathComponent) (segment : Nat) {camera : String}
    (relative : camera.toList.head? ≠ some '/') :
    segmentFile sessionDir segment camera = sessionDir ++
      .normal ("segment_" ++ padded 4 segment).toList ::
        (parts camera.toList ++ [.normal "segment.mp4".toList]) := by
  have slashFree : '/' ∉ ("segment_" ++ padded 4 segment).toList := by
    rw [String.toList_append, List.mem_append]
    rintro (start | digits)
    · exact absurd start (by decide)
    · exact slash_not_mem_padded 4 segment digits
  have long : 2 < ("segment_" ++ padded 4 segment).toList.length := by
    rw [String.toList_append, List.length_append]
    simp
    omega
  have file : components "segment.mp4".toList = [.normal "segment.mp4".toList] :=
    components_name (by decide) (by decide)
  rw [segmentFile, components_name slashFree long, join_normal sessionDir (by simp) (by simp),
    join_parts (by simp) relative, file, join_normal _ (by simp) (by simp)]
  simp only [List.append_assoc, List.cons_append, List.nil_append]

theorem parentDir_mem_datasetFile (chunk : Nat) (camera : String) (episode : Nat) :
    .parentDir ∈ datasetFile [] (videoPath chunk camera episode) ↔ .parentDir ∈ parts camera.toList := by
  rw [datasetFile_eq, chunkDir]
  simp

theorem NamesApart.keysAreFiles {cameras : Set String} (apart : NamesApart cameras) :
    KeysAreFiles cameras := by
  refine ⟨?_, ?_, ?_, ?_⟩
  · intro camera used chunk episode
    exact fun leads => apart.inside camera used ((parentDir_mem_datasetFile ..).mp leads)
  · intro sessionDir camera used other used' i j
    constructor
    · intro same
      rw [segmentFile_eq _ _ (apart.relative camera used),
        segmentFile_eq _ _ (apart.relative other used'), List.append_right_inj] at same
      obtain ⟨segment, below⟩ := List.cons.inj same
      have names := apart.distinct camera used other used' (List.append_cancel_right below)
      have texts := String.toList_injective (PathComponent.normal.inj segment)
      rw [names, padded_injective ((String.append_right_inj _).mp texts)]
    · intro same
      obtain ⟨rfl, rfl⟩ := segmentPath_injective same
      rfl
  · intro outputDir camera used chunk episode
    exact ((encodedVideoFile_iff ..).mpr ⟨rfl, apart.relative camera used⟩).symm
  · intro outputDir camera used other used' chunk episode chunk' episode'
    constructor
    · intro same
      have whole := same
      rw [datasetFile_eq, datasetFile_eq] at whole
      obtain ⟨dirs, file⟩ := List.append_inj' whole (by simp)
      have names := apart.distinct camera used other used'
        (List.append_inj dirs (by simp [chunkDir])).2
      have texts := String.toList_injective
        (PathComponent.normal.inj (List.singleton_inj.mp file))
      have episodes := padded_injective
        ((String.append_right_inj _).mp ((String.append_left_inj _).mp texts))
      subst names episodes
      rw [datasetFile_inj_chunk same]
    · exact fun same => by rw [same]

/-- The texts stand for the files exactly where the names are directories of their own. -/
theorem keysAreFiles_iff {cameras : Set String} : KeysAreFiles cameras ↔ NamesApart cameras := by
  refine ⟨fun keys => ⟨fun camera used => ?_, fun camera used => ?_, fun camera used other used' same => ?_⟩,
    NamesApart.keysAreFiles⟩
  · exact ((encodedVideoFile_iff ..).mp (keys.encoded [] camera used 0 0).symm).2
  · exact fun leads => keys.inside camera used 0 0 ((parentDir_mem_datasetFile ..).mpr leads)
  · have file : datasetFile [] (videoPath 0 camera 0) = datasetFile [] (videoPath 0 other 0) := by
      rw [datasetFile_eq, datasetFile_eq, same]
    exact (videoPath_injective ((keys.videos [] camera used other used' 0 0 0 0).mp file)).2

theorem fromAlignedFrame_image (frame : AlignedFrame Value) (episode : Nat) (camera : String) :
    (LerobotFrame.fromAlignedFrame frame episode).imageFrames.get camera =
      (frame.images.get camera).map fun _ => (videoPath 0 camera episode, frame.timestamp) := by
  simp only [LerobotFrame.fromAlignedFrame, Kv.get, List.find?_map, Option.map_map]
  cases found : frame.images.entries.find? fun entry => entry.1 = camera with
  | none => simp [Function.comp_def, found]
  | some entry =>
    have named : entry.1 = camera := by simpa using List.find?_some found
    simp [Function.comp_def, found, named]

/-- What the rows of an episode say for a camera: a frame's own reference, which names
chunk 0, or the default. -/
theorem mem_imageFrames [Zero Value] (frames : List (AlignedFrame Value)) {episode chunk : Nat}
    {rows : List (ParquetRow Value)}
    (read : episodeRows (frames.map (.fromAlignedFrame · episode)) episode chunk = .ok rows)
    (camera path : String) :
    (∃ row ∈ rows, ∃ time, (camera, path, time) ∈ row.imageFrames) ↔
      (∃ frame ∈ frames, frame.images.get camera ≠ none) ∧
      ∃ frame ∈ frames, path = videoPath (if frame.images.get camera = none then chunk else 0)
        camera episode := by
  have listed : rows.map (·.imageFrames) = frames.map fun frame =>
      (cameras (frames.map (.fromAlignedFrame · episode))).map fun camera =>
        (camera, imageReference episode chunk camera (.fromAlignedFrame frame episode)) := by
    unfold episodeRows at read
    split at read
    · cases read
    · cases read
      rw [List.map_map]
      refine (fillRows_images ..).trans ?_
      rw [List.map_map]
      rfl
  have known : camera ∈ cameras (frames.map (.fromAlignedFrame · episode)) ↔
      ∃ frame ∈ frames, frame.images.get camera ≠ none := by
    rw [mem_cameras]
    simp only [List.mem_map, exists_exists_and_eq_and, fromAlignedFrame_image, ne_eq,
      Option.map_eq_none_iff]
  have reference : ∀ frame : AlignedFrame Value,
      imageReference episode chunk camera (.fromAlignedFrame frame episode) =
        (videoPath (if frame.images.get camera = none then chunk else 0) camera episode,
          frame.timestamp) := by
    intro frame
    rw [imageReference, fromAlignedFrame_image]
    cases frame.images.get camera <;> rfl
  have entries : (∃ row ∈ rows, ∃ time, (camera, path, time) ∈ row.imageFrames) ↔
      ∃ images ∈ rows.map (·.imageFrames), ∃ time, (camera, path, time) ∈ images := by
    simp only [List.mem_map, exists_exists_and_eq_and]
  rw [entries, listed, ← known]
  simp only [List.mem_map, exists_exists_and_eq_and]
  constructor
  · rintro ⟨frame, member, time, other, held, whole⟩
    obtain ⟨rfl, named⟩ := Prod.mk.inj whole
    rw [reference] at named
    exact ⟨held, frame, member, (Prod.mk.inj named).1.symm⟩
  · rintro ⟨held, frame, member, rfl⟩
    exact ⟨frame, member, frame.timestamp, camera, held, by rw [reference]⟩

/-- Where an episode's rows are written, a camera's paths name its video exactly if no frame
has an image of it, or its video is written to chunk 0 and, by `encode_videos`, below the
dataset's root. -/
theorem recorded_paths_iff [Zero Value] (w : LerobotWriter Value) (frames : List (AlignedFrame Value))
    (outputDir : List PathComponent) {rows : List (ParquetRow Value)}
    (own : w.frameData = frames.map (.fromAlignedFrame · w.episodeIndex))
    (read : episodeRows w.frameData w.episodeIndex w.chunkIndex = .ok rows) (camera : String) :
    PathsNameVideo w outputDir rows camera ↔
      ((∃ frame ∈ frames, frame.images.get camera ≠ none) →
        (w.Encodes camera → w.chunkIndex = 0 ∧ camera.toList.head? ≠ some '/') ∧
        (w.Merges camera → w.chunkIndex = 0)) := by
  rw [own] at read
  have stored := mem_imageFrames frames read camera
  constructor
  · rintro names ⟨frame, member, imaged⟩
    obtain ⟨row, listed, time, entry⟩ := (stored (videoPath 0 camera w.episodeIndex)).mpr
      ⟨⟨frame, member, imaged⟩, frame, member, by rw [if_neg imaged]⟩
    constructor
    · intro encodes
      have same := names row listed _ time entry _ (.encoded encodes)
      obtain ⟨chunk, relative⟩ := (encodedVideoFile_iff ..).mp same
      exact ⟨chunk.symm, relative⟩
    · intro merges
      exact (datasetFile_inj_chunk (names row listed _ time entry _ (.merged merges))).symm
  · intro condition row listed path time entry file written
    obtain ⟨imaged, frame, member, rfl⟩ := (stored path).mp ⟨row, listed, time, entry⟩
    obtain ⟨encoding, merging⟩ := condition imaged
    cases written with
    | encoded encodes =>
      obtain ⟨first, relative⟩ := encoding encodes
      rw [first, ite_self]
      exact (encodedVideoFile_iff ..).mpr ⟨rfl, relative⟩
    | merged merges =>
      rw [merging merges, ite_self]

/-- One frame with a state and one raw picture. -/
def filmedFrame : AlignedFrame Nat :=
  { AlignedFrame.new 0 0 with
    states := Kv.empty.put "state" [1]
    images := Kv.empty.put "cam" ⟨1, 1, [0, 0, 0], 0, false, false⟩ }

/-- A writer with the frame as episode `index`, every episode in a chunk of its own. -/
def filming (index : Nat) : LerobotWriter Nat :=
  (((LerobotWriter.newLocal ⟨0, 0⟩ fun _ => none).setEpisodesPerChunk 1).setEpisodeIndex index).addFrame
    filmedFrame

theorem filming_encodes (index : Nat) : (filming index).Encodes "cam" := by
  have encodable : (filming index).encodable = [("cam", [⟨1, 1, [0, 0, 0]⟩])] := rfl
  exact ⟨[⟨1, 1, [0, 0, 0]⟩], by rw [encodable]; exact List.mem_cons_self⟩

theorem filming_rows (index : Nat) : ∃ rows,
    episodeRows (filming index).frameData (filming index).episodeIndex (filming index).chunkIndex =
      .ok rows := ⟨_, rfl⟩

theorem recorded_path_in_first_chunk : ∃ rows, PathsNameVideo (filming 0) [.rootDir] rows "cam" ↔
    ((∃ frame ∈ [filmedFrame], frame.images.get "cam" ≠ none) →
      ((filming 0).Encodes "cam" → (filming 0).chunkIndex = 0 ∧ "cam".toList.head? ≠ some '/') ∧
      ((filming 0).Merges "cam" → (filming 0).chunkIndex = 0)) := by
  obtain ⟨rows, read⟩ := filming_rows 0
  exact ⟨rows, recorded_paths_iff (filming 0) [filmedFrame] [.rootDir] rfl read "cam"⟩

/-- In the second chunk the row still names the first. -/
theorem second_chunk_misnamed : ∃ rows, episodeRows (filming 1).frameData (filming 1).episodeIndex
    (filming 1).chunkIndex = .ok rows ∧ ¬ PathsNameVideo (filming 1) [.rootDir] rows "cam" := by
  obtain ⟨rows, read⟩ := filming_rows 1
  refine ⟨rows, read, fun names => ?_⟩
  have imaged : filmedFrame.images.get "cam" ≠ none := by decide
  obtain ⟨row, listed, time, entry⟩ :=
    (mem_imageFrames [filmedFrame] read "cam" (videoPath 0 "cam" 1)).mpr
      ⟨⟨_, List.mem_cons_self, imaged⟩, _, List.mem_cons_self, by rw [if_neg imaged]; rfl⟩
  have same := names row listed _ time entry _ (.encoded (filming_encodes 1))
  have chunk := ((encodedVideoFile_iff ..).mp same).1
  exact absurd chunk (by decide)

end Roboflow.Lerobot
