import Roboflow.Lerobot.Writer

/-! What the image buffers, the pending segments and the merge do for one camera at a
time, and what one operation leaves of the others' files. -/
namespace Roboflow.Lerobot
open Library
open Roboflow.Alignment (AlignedFrame ImageData)

/-! ### File names -/

theorem padded_value (width n : Nat) : Nat.ofDigitChars 10 (padded width n).toList 0 = n := by
  simp only [padded, String.toList_ofList, List.leftpad, Nat.ofDigitChars_append,
    Nat.ofDigitChars_replicate_zero, Nat.mul_zero]
  exact Nat.ofDigitChars_ten_toDigits

theorem padded_injective (same : padded width n = padded width m) : n = m := by
  have values := congrArg (fun text : String => Nat.ofDigitChars 10 text.toList 0) same
  simpa only [padded_value] using values

theorem isDigit_of_mem_padded {c : Char} (member : c ∈ (padded width n).toList) : c.isDigit = true := by
  simp only [padded, String.toList_ofList, List.leftpad, List.mem_append,
    List.mem_replicate] at member
  rcases member with ⟨-, rfl⟩ | digit
  · rfl
  · exact Nat.isDigit_of_mem_toDigits (by decide) (by decide) digit

/-- The digits hold no separator. -/
theorem slash_not_mem_padded (width n : Nat) : '/' ∉ (padded width n).toList :=
  fun member => absurd (isDigit_of_mem_padded member) (by decide)

/-- Texts before the first of a separator are the same when the whole texts are. -/
theorem split_at_first {a b rest rest' : List Char} {c : Char} (freeA : c ∉ a) (freeB : c ∉ b)
    (same : a ++ c :: rest = b ++ c :: rest') : a = b ∧ rest = rest' := by
  induction a generalizing b with
  | nil =>
    cases b with
    | nil => exact ⟨rfl, (List.cons.inj same).2⟩
    | cons x xs => exact absurd (List.cons.inj same).1 (by rintro rfl; exact freeB List.mem_cons_self)
  | cons x xs ih =>
    cases b with
    | nil =>
      exact absurd (List.cons.inj same).1.symm (by rintro rfl; exact freeA List.mem_cons_self)
    | cons y ys =>
      obtain ⟨rfl, tails⟩ := List.cons.inj same
      obtain ⟨rfl, rests⟩ := ih (fun m => freeA (List.mem_cons_of_mem _ m))
        (fun m => freeB (List.mem_cons_of_mem _ m)) tails
      exact ⟨rfl, rests⟩

theorem segmentPath_injective (same : segmentPath i camera = segmentPath j camera') :
    i = j ∧ camera = camera' := by
  have lists := congrArg String.toList same
  simp only [segmentPath, String.toList_append, List.append_assoc] at lists
  have tails := List.append_cancel_left lists
  obtain ⟨number, rest⟩ := split_at_first (slash_not_mem_padded 4 i) (slash_not_mem_padded 4 j) tails
  exact ⟨padded_injective (String.toList_injective number),
    String.toList_injective (List.append_cancel_right rest)⟩

/-- The last part of a path is after its last separator. -/
theorem split_at_last {a b rest rest' : List Char} {c : Char} (freeA : c ∉ rest) (freeB : c ∉ rest')
    (same : a ++ c :: rest = b ++ c :: rest') : a = b ∧ rest = rest' := by
  have reversed := congrArg List.reverse same
  simp only [List.reverse_append, List.reverse_cons, List.append_assoc] at reversed
  obtain ⟨tails, heads⟩ := split_at_first (by simpa using freeA) (by simpa using freeB) reversed
  exact ⟨List.reverse_injective heads, List.reverse_injective tails⟩

theorem videoPath_injective (same : videoPath chunk camera i = videoPath chunk' camera' j) :
    i = j ∧ camera = camera' := by
  have lists := congrArg String.toList same
  simp only [videoPath, chunkDirName, String.toList_append, List.append_assoc] at lists
  have afterVideos := List.append_cancel_left (List.append_cancel_left lists)
  obtain ⟨-, rest⟩ :=
    split_at_first (slash_not_mem_padded 3 chunk) (slash_not_mem_padded 3 chunk') afterVideos
  have free : ∀ n, '/' ∉ "episode_".toList ++ ((padded 6 n).toList ++ ".mp4".toList) := by
    intro n member
    rcases List.mem_append.mp member with head | tail
    · exact absurd head (by decide)
    · rcases List.mem_append.mp tail with digits | extension
      · exact slash_not_mem_padded 6 n digits
      · exact absurd extension (by decide)
  obtain ⟨cameras, names⟩ := split_at_last (free i) (free j) rest
  have digits := List.append_cancel_right (List.append_cancel_left names)
  exact ⟨padded_injective (String.toList_injective digits), String.toList_injective cameras⟩

theorem parquetPath_injective (same : parquetPath chunk i = parquetPath chunk' j) : i = j := by
  have lists := congrArg String.toList same
  simp only [parquetPath, chunkDirName, String.toList_append, List.append_assoc] at lists
  have afterData := List.append_cancel_left (List.append_cancel_left lists)
  obtain ⟨-, rest⟩ :=
    split_at_first (slash_not_mem_padded 3 chunk) (slash_not_mem_padded 3 chunk') afterData
  have names : "episode_".toList ++ ((padded 6 i).toList ++ ".parquet".toList) =
      "episode_".toList ++ ((padded 6 j).toList ++ ".parquet".toList) := rest
  have digits := List.append_cancel_right (List.append_cancel_left names)
  exact padded_injective (String.toList_injective digits)

/-! ### Frame buffers -/

theorem foldl_addVideoFrame_ne_nil {frames : List VideoFrame} (some_ : frames ≠ [])
    (more : List VideoFrame) : more.foldl addVideoFrame frames ≠ [] := by
  induction more generalizing frames with
  | nil => exact some_
  | cons frame rest ih =>
    apply ih
    unfold addVideoFrame
    split
    · simp
    · split <;> simp_all

/-- A buffer gives a video as soon as one of its images can be prepared. -/
theorem buildFrameBuffer_eq_nil_iff (decode : Decoder) (images : List ImageData) :
    (buildFrameBuffer decode images).1 = [] ↔ ∀ image ∈ images, prepared decode image = none := by
  rw [← List.filterMap_eq_nil_iff]
  simp only [buildFrameBuffer]
  constructor
  · intro empty
    cases ready : images.filterMap (prepared decode) with
    | nil => rfl
    | cons first rest =>
      rw [ready, List.foldl_cons] at empty
      exact absurd empty (foldl_addVideoFrame_ne_nil (by simp [addVideoFrame]) rest)
  · intro none_ready
    rw [none_ready]
    rfl

/-- Pictures of one size all fit. -/
theorem foldl_addVideoFrame_sized (width height : Nat) (frames more : List VideoFrame)
    (sized : ∀ frame ∈ frames ++ more, frame.width = width ∧ frame.height = height) :
    more.foldl addVideoFrame frames = frames ++ more := by
  induction more generalizing frames with
  | nil => simp
  | cons frame rest ih =>
    have step : addVideoFrame frames frame = frames ++ [frame] := by
      cases frames with
      | nil => rfl
      | cons first others =>
        have one := sized first (by simp)
        have two := sized frame (by simp)
        simp [addVideoFrame, one, two]
    rw [List.foldl_cons, step, ih (frames ++ [frame])]
    · simp
    · simpa using sized

namespace LerobotWriter

variable {Value : Type} {w : LerobotWriter Value}

/-! ### One camera's buffer -/

/-- The pictures an encoding of a camera's buffer would write. -/
def pictures (w : LerobotWriter Value) (camera : String) : List VideoFrame :=
  (buildFrameBuffer w.decode (w.imageBuffers.bucket camera)).1

theorem pictures_of_empty (empty : w.imageBuffers.bucket camera = []) : w.pictures camera = [] := by
  rw [pictures, empty]
  rfl

theorem encodable_filter (w : LerobotWriter Value) (camera : String) :
    w.encodable.filter (fun entry => entry.1 = camera) =
      if w.pictures camera = [] then [] else [(camera, w.pictures camera)] := by
  have entries : w.encodable.filter (fun entry => entry.1 = camera) =
      (w.imageBuffers.entries.filter fun entry => entry.1 = camera).filterMap fun entry =>
        let frames := (buildFrameBuffer w.decode entry.2).1
        if frames.isEmpty then none else some (entry.1, frames) := by
    rw [encodable, List.filter_filterMap, List.filterMap_filter]
    refine List.filterMap_congr fun entry _ => ?_
    by_cases named : entry.1 = camera
    · simp only [named, decide_true, if_true]
      split <;> simp
    · simp only [named, decide_false]
      split <;> simp [named]
  have own := w.imageBuffers.filter_entries camera
  rw [entries]
  cases found : w.imageBuffers.entries.filter (fun entry => entry.1 = camera) with
  | nil =>
    rw [found] at own
    have absent : w.imageBuffers.bucket camera = [] := by
      rw [Kv.bucket]
      cases read : w.imageBuffers.get camera with
      | none => rfl
      | some images => simp [read] at own
    simp [pictures_of_empty absent]
  | cons entry rest =>
    rw [found] at own
    cases read : w.imageBuffers.get camera with
    | none => simp [read] at own
    | some images =>
      rw [read] at own
      obtain ⟨content, last⟩ := List.cons.inj own
      have only : rest = [] := List.map_eq_nil_iff.mp last
      have named : entry.1 = camera := by
        have member : entry ∈ w.imageBuffers.entries.filter (fun entry => entry.1 = camera) := by
          rw [found]
          exact List.mem_cons_self
        simpa using (List.mem_filter.mp member).2
      have same : w.pictures camera = (buildFrameBuffer w.decode entry.2).1 := by
        rw [pictures, Kv.bucket, read, content]
        rfl
      simp only [only, List.filterMap_cons, List.filterMap_nil, ← same, named]
      by_cases none_ : w.pictures camera = []
      · simp [none_]
      · simp [none_]

theorem encodable_keys_nodup (w : LerobotWriter Value) : (w.encodable.map Prod.fst).Nodup := by
  have kept : (w.encodable.map Prod.fst).Sublist (w.imageBuffers.entries.map Prod.fst) := by
    unfold encodable
    induction w.imageBuffers.entries with
    | nil => exact List.Sublist.refl _
    | cons entry rest ih =>
      simp only [List.filterMap_cons, List.map_cons]
      by_cases none_ : (buildFrameBuffer w.decode entry.2).1.isEmpty
      · simp only [none_, if_true]
        exact ih.cons _
      · simp only [none_]
        exact ih.cons_cons _
  exact w.imageBuffers.keys_nodup.sublist kept

theorem mem_encodable : (camera, frames) ∈ w.encodable ↔
    frames = w.pictures camera ∧ w.pictures camera ≠ [] := by
  have filtered := w.encodable_filter camera
  have member : (camera, frames) ∈ w.encodable ↔
      (camera, frames) ∈ w.encodable.filter fun entry => entry.1 = camera := by simp
  rw [member, filtered]
  by_cases none_ : w.pictures camera = []
  · simp [none_]
  · simp [none_]

theorem buffersEmpty_iff : w.buffersEmpty = true ↔
    ∀ camera, w.imageBuffers.bucket camera = [] := by
  simp only [buffersEmpty, List.all_eq_true, List.isEmpty_iff]
  constructor
  · intro all camera
    rw [Kv.bucket]
    cases read : w.imageBuffers.get camera with
    | none => rfl
    | some images => exact all (camera, images) ((w.imageBuffers.mem_entries).mpr read)
  · rintro all ⟨camera, images⟩ member
    have := all camera
    rwa [Kv.bucket, (w.imageBuffers.mem_entries).mp member] at this

/-- A new frame's image goes to the end of its camera's buffer. -/
theorem addFrame_bucket (frame : AlignedFrame Value) (camera : String) :
    (w.addFrame frame).imageBuffers.bucket camera =
      w.imageBuffers.bucket camera ++ (frame.images.get camera).toList := by
  simp only [addFrame, Kv.bucket_pushAll, Kv.filter_entries]

/-! ### Segments -/

/-- The pictures in a camera's pending segments, joined. -/
def flushed (w : LerobotWriter Value) (camera : String) : List VideoFrame :=
  (w.pendingSegments.bucket camera).flatMap fun path => (w.segmentFiles.get path).getD []

/-- Every pending segment is a file of an earlier segment number, and not empty. -/
def Stored (w : LerobotWriter Value) : Prop :=
  ∀ camera, ∀ path ∈ w.pendingSegments.bucket camera,
    (∃ i < w.segmentIndex, path = segmentPath i camera) ∧
      ∃ part, part ≠ [] ∧ w.segmentFiles.get path = some part

theorem Stored.flushed_eq_nil (stored : Stored w) :
    w.flushed camera = [] ↔ w.pendingSegments.bucket camera = [] := by
  constructor
  · intro none_
    rw [flushed, List.flatMap_eq_nil_iff] at none_
    rw [List.eq_nil_iff_forall_not_mem]
    intro path member
    obtain ⟨-, part, some_, read⟩ := stored camera path member
    have := none_ path member
    rw [read] at this
    exact some_ this
  · intro none_
    rw [flushed, none_]
    rfl

/-- A segment file of the number that is written next. -/
theorem flushVideoSegment_file (some_ : w.pictures camera ≠ []) :
    w.flushVideoSegment.segmentFiles.get (segmentPath w.segmentIndex camera) =
      some (w.pictures camera) := by
  have full : w.buffersEmpty = false := by
    rw [← Bool.not_eq_true]
    intro empty
    exact some_ (pictures_of_empty (buffersEmpty_iff.mp empty camera))
  simp only [flushVideoSegment, full, Bool.false_eq_true, if_false, List.map_map, Function.comp_def]
  apply Kv.get_putAll_of_nodup
  · have distinct := w.encodable_keys_nodup.map (f := segmentPath w.segmentIndex)
      fun _ _ same => (segmentPath_injective same).2
    simpa [Function.comp_def] using distinct
  · exact List.mem_map.mpr ⟨(camera, w.pictures camera), mem_encodable.mpr ⟨rfl, some_⟩, rfl⟩

/-- Files of other segment numbers stay. -/
theorem flushVideoSegment_others (other : i ≠ w.segmentIndex) :
    w.flushVideoSegment.segmentFiles.get (segmentPath i camera) =
      w.segmentFiles.get (segmentPath i camera) := by
  unfold flushVideoSegment
  split
  · rfl
  · apply Kv.get_putAll_of_notMem
    simp only [List.map_map, List.mem_map, Function.comp_def, not_exists, not_and]
    intro entry _ same
    exact other (segmentPath_injective same).1.symm

theorem flushVideoSegment_pending (w : LerobotWriter Value) (camera : String) :
    w.flushVideoSegment.pendingSegments.bucket camera =
      w.pendingSegments.bucket camera ++
        if w.pictures camera = [] then [] else [segmentPath w.segmentIndex camera] := by
  unfold flushVideoSegment
  split
  · rename_i empty
    rw [if_pos (pictures_of_empty (buffersEmpty_iff.mp empty camera)), List.append_nil]
  · simp only [List.map_map, Function.comp_def, Kv.bucket_pushAll]
    congr 1
    have own := w.encodable_filter camera
    have mapped : ((w.encodable.map fun entry =>
        (entry.1, segmentPath w.segmentIndex entry.1)).filter fun pair => pair.1 = camera).map
          Prod.snd = (w.encodable.filter fun entry => entry.1 = camera).map fun entry =>
            segmentPath w.segmentIndex entry.1 := by
      rw [List.filter_map, List.map_map]
      rfl
    rw [mapped, own]
    split <;> rfl

theorem flushVideoSegment_bucket (w : LerobotWriter Value) (camera : String) :
    w.flushVideoSegment.imageBuffers.bucket camera = [] := by
  unfold flushVideoSegment
  split
  · rename_i empty
    exact buffersEmpty_iff.mp empty camera
  · exact Kv.bucket_drained _ _

theorem flushVideoSegment_index (w : LerobotWriter Value) :
    w.segmentIndex ≤ w.flushVideoSegment.segmentIndex ∧
      ((∃ camera, w.pictures camera ≠ []) →
        w.segmentIndex < w.flushVideoSegment.segmentIndex) := by
  unfold flushVideoSegment
  split
  · rename_i empty
    refine ⟨le_rfl, ?_⟩
    rintro ⟨camera, some_⟩
    exact absurd (pictures_of_empty (buffersEmpty_iff.mp empty camera)) some_
  · exact ⟨Nat.le_succ _, fun _ => Nat.lt_succ_self _⟩

theorem Stored.flush (stored : Stored w) : Stored w.flushVideoSegment := by
  intro camera path member
  rw [flushVideoSegment_pending, List.mem_append] at member
  rcases member with old | new
  · obtain ⟨⟨i, below, rfl⟩, part, some_, read⟩ := stored camera path old
    refine ⟨⟨i, below.trans_le (flushVideoSegment_index w).1, rfl⟩, part, some_, ?_⟩
    rw [flushVideoSegment_others below.ne, read]
  · by_cases none_ : w.pictures camera = []
    · simp [none_] at new
    · rw [if_neg none_, List.mem_singleton] at new
      subst new
      exact ⟨⟨w.segmentIndex, (flushVideoSegment_index w).2 ⟨camera, none_⟩, rfl⟩,
        w.pictures camera, none_, flushVideoSegment_file none_⟩

/-- A flush moves a camera's pictures from its buffer to its segments. -/
theorem Stored.flushed_flush (stored : Stored w) (camera : String) :
    w.flushVideoSegment.flushed camera = w.flushed camera ++ w.pictures camera := by
  have old : (w.pendingSegments.bucket camera).flatMap (fun path =>
      (w.flushVideoSegment.segmentFiles.get path).getD []) = w.flushed camera := by
    refine List.flatMap_congr fun path member => ?_
    obtain ⟨⟨i, below, rfl⟩, -⟩ := stored camera path member
    rw [flushVideoSegment_others below.ne]
  rw [flushed, flushVideoSegment_pending, List.flatMap_append, old]
  congr 1
  by_cases none_ : w.pictures camera = []
  · simp [none_]
  · simp [none_, flushVideoSegment_file none_]

/-! ### Final files -/

/-- The videos of what is in the buffers. -/
theorem encodeVideos_file (w : LerobotWriter Value) (camera : String) :
    w.encodeVideos.videoFiles.get (videoPath w.chunkIndex camera w.episodeIndex) =
      if w.pictures camera = [] then
        w.videoFiles.get (videoPath w.chunkIndex camera w.episodeIndex)
      else some (w.pictures camera) := by
  simp only [encodeVideos]
  by_cases none_ : w.pictures camera = []
  · rw [if_pos none_]
    apply Kv.get_putAll_of_notMem
    simp only [List.map_map, List.mem_map, Function.comp_def, not_exists, not_and]
    rintro ⟨other, frames⟩ member same
    obtain ⟨-, named⟩ := videoPath_injective same
    subst named
    exact (mem_encodable.mp member).2 none_
  · rw [if_neg none_]
    apply Kv.get_putAll_of_nodup
    · have distinct := w.encodable_keys_nodup.map
        (f := fun camera => videoPath w.chunkIndex camera w.episodeIndex)
        fun _ _ same => (videoPath_injective same).2
      simpa [Function.comp_def] using distinct
    · exact List.mem_map.mpr ⟨(camera, w.pictures camera), mem_encodable.mpr ⟨rfl, none_⟩, rfl⟩

theorem encodeVideos_others (other : ∀ camera, path ≠ videoPath w.chunkIndex camera w.episodeIndex) :
    w.encodeVideos.videoFiles.get path = w.videoFiles.get path := by
  apply Kv.get_putAll_of_notMem
  simp only [List.map_map, List.mem_map, Function.comp_def, not_exists, not_and]
  intro entry _ same
  exact other entry.1 same.symm

theorem foldlM_append_ok {f : List β → α → Except ε (List β)} {g : α → List β} {items : List α}
    (each : ∀ item ∈ items, ∀ joined, f joined item = .ok (joined ++ g item)) (joined : List β) :
    items.foldlM f joined = .ok (joined ++ items.flatMap g) := by
  induction items generalizing joined with
  | nil =>
    rw [List.foldlM_nil, List.flatMap_nil, List.append_nil]
    rfl
  | cons item rest ih =>
    rw [List.foldlM_cons, each item List.mem_cons_self, List.flatMap_cons, ← List.append_assoc]
    exact ih (fun other member => each other (List.mem_cons_of_mem _ member)) _

/-- What the composer makes of segments that are there. -/
theorem compose_ok {segments : List String}
    (present : ∀ path ∈ segments, ∃ part, w.segmentFiles.get path = some part) :
    w.compose segments = .ok (segments.flatMap fun path => (w.segmentFiles.get path).getD []) := by
  refine foldlM_append_ok ?_ []
  intro path member joined
  obtain ⟨part, read⟩ := present path member
  simp only [read, Option.getD_some]

/-- The files that a merge of the entries writes. -/
def merged (w : LerobotWriter Value) (entries : List (String × List String)) :
    List (String × List VideoFrame) :=
  (entries.filter fun entry => !entry.2.isEmpty).map fun entry =>
    (videoPath w.chunkIndex entry.1 w.episodeIndex,
      entry.2.flatMap fun path => (w.segmentFiles.get path).getD [])

theorem foldlM_mergeCamera (entries : List (String × List String))
    (present : ∀ entry ∈ entries, ∀ path ∈ entry.2, ∃ part, w.segmentFiles.get path = some part) :
    entries.foldlM mergeCamera w =
      .ok { w with videoFiles := w.videoFiles.putAll (w.merged entries) } := by
  induction entries generalizing w with
  | nil => rfl
  | cons entry rest ih =>
    have later : ∀ other ∈ rest, ∀ path ∈ other.2, ∃ part, w.segmentFiles.get path = some part :=
      fun other member => present other (List.mem_cons_of_mem _ member)
    rw [List.foldlM_cons]
    by_cases blank : entry.2.isEmpty
    · have step : mergeCamera w entry = .ok w := if_pos blank
      have same : w.merged (entry :: rest) = w.merged rest := by simp [merged, blank]
      rw [step, same]
      exact ih later
    · have step : mergeCamera w entry = .ok { w with
          videoFiles := w.videoFiles.put (videoPath w.chunkIndex entry.1 w.episodeIndex)
            (entry.2.flatMap fun path => (w.segmentFiles.get path).getD []) } := by
        simp only [mergeCamera, blank, compose_ok (present entry List.mem_cons_self)]
        rfl
      have more : w.merged (entry :: rest) =
          (videoPath w.chunkIndex entry.1 w.episodeIndex,
            entry.2.flatMap fun path => (w.segmentFiles.get path).getD []) :: w.merged rest := by
        simp [merged, blank]
      rw [step, more]
      exact ih later

/-- The merge: a camera with segments gets the video of them under the episode that is
current, and every other video stays. -/
theorem mergePendingSegments_spec (stored : Stored w) :
    ∃ w', w.mergePendingSegments = .ok w' ∧ w'.metadata = w.metadata ∧
      w'.parquetFiles = w.parquetFiles ∧
      (∀ camera, w'.videoFiles.get (videoPath w.chunkIndex camera w.episodeIndex) =
        if w.flushed camera = [] then
          w.videoFiles.get (videoPath w.chunkIndex camera w.episodeIndex)
        else some (w.flushed camera)) ∧
      ∀ path, (∀ camera, path ≠ videoPath w.chunkIndex camera w.episodeIndex) →
        w'.videoFiles.get path = w.videoFiles.get path := by
  have present : ∀ entry ∈ w.pendingSegments.entries, ∀ path ∈ entry.2,
      ∃ part, w.segmentFiles.get path = some part := by
    rintro ⟨camera, segments⟩ member path inside
    have read := (w.pendingSegments.mem_entries).mp member
    have listed : path ∈ w.pendingSegments.bucket camera := by
      rw [Kv.bucket, read]
      exact inside
    obtain ⟨-, part, -, found⟩ := stored camera path listed
    exact ⟨part, found⟩
  have ran : ∃ w', w.mergePendingSegments = .ok w' ∧ w'.metadata = w.metadata ∧
      w'.parquetFiles = w.parquetFiles ∧
      w'.videoFiles = w.videoFiles.putAll (w.merged w.pendingSegments.entries) := by
    unfold mergePendingSegments
    split
    · rename_i none_
      refine ⟨w, rfl, rfl, rfl, ?_⟩
      rw [List.isEmpty_iff.mp none_]
      rfl
    · rw [foldlM_mergeCamera _ present]
      exact ⟨_, rfl, rfl, rfl, rfl⟩
  obtain ⟨w', done, metadata, parquet, videos⟩ := ran
  refine ⟨w', done, metadata, parquet, ?_, ?_⟩
  · intro camera
    rw [videos]
    by_cases none_ : w.flushed camera = []
    · rw [if_pos none_]
      apply Kv.get_putAll_of_notMem
      simp only [merged, List.map_map, List.mem_map, List.mem_filter, Function.comp_def, not_exists,
        not_and]
      rintro ⟨other, segments⟩ ⟨member, some_⟩ same
      obtain ⟨-, rfl⟩ := videoPath_injective same
      have read := (w.pendingSegments.mem_entries).mp member
      have empty := stored.flushed_eq_nil.mp none_
      rw [Kv.bucket, read] at empty
      simp only [Option.getD_some] at empty
      simp [empty] at some_
    · rw [if_neg none_]
      have some_ : w.pendingSegments.bucket camera ≠ [] :=
        fun empty => none_ (stored.flushed_eq_nil.mpr empty)
      apply Kv.get_putAll_of_nodup
      · have kept : ((w.pendingSegments.entries.filter fun entry => !entry.2.isEmpty).map
            Prod.fst).Nodup :=
          w.pendingSegments.keys_nodup.sublist (List.filter_sublist.map _)
        have distinct := kept.map
          (f := fun camera => videoPath w.chunkIndex camera w.episodeIndex)
          fun _ _ same => (videoPath_injective same).2
        simpa [merged, Function.comp_def] using distinct
      · cases read : w.pendingSegments.get camera with
        | none => simp [Kv.bucket, read] at some_
        | some segments =>
          refine List.mem_map.mpr ⟨(camera, segments), List.mem_filter.mpr
            ⟨(w.pendingSegments.mem_entries).mpr read, ?_⟩, ?_⟩
          · simpa [Kv.bucket, read] using some_
          · simp only [flushed, Kv.bucket, read, Option.getD_some]
  · intro path other
    rw [videos]
    apply Kv.get_putAll_of_notMem
    simp only [merged, List.map_map, List.mem_map, Function.comp_def, not_exists, not_and]
    intro entry _ same
    exact other entry.1 same.symm

/-! ### Writing frames -/

/-- The images of one camera. -/
def imagesOf (camera : String) (frames : List (AlignedFrame Value)) : List ImageData :=
  frames.filterMap fun frame => frame.images.get camera

/-- Frames, each with the decision whether the buffers are flushed after it. -/
def writeFrames (w : LerobotWriter Value) (frames : List (AlignedFrame Value × Bool)) :
    LerobotWriter Value :=
  frames.foldl (fun w frame => w.writeFrameAt frame.1 frame.2) w

/-- The decisions are those of the writer's own thresholds. -/
theorem foldl_writeFrame (w : LerobotWriter Value) (frames : List (AlignedFrame Value)) :
    ∃ points, points.map Prod.fst = frames ∧ frames.foldl writeFrame w = w.writeFrames points := by
  induction frames generalizing w with
  | nil => exact ⟨[], rfl, rfl⟩
  | cons frame rest ih =>
    obtain ⟨points, named, ran⟩ := ih (w.writeFrame frame)
    exact ⟨(frame, (w.addFrame frame).flushes) :: points, by rw [List.map_cons, named], ran⟩

/-- What writing frames leaves alone, and the rows it adds. -/
structure Wrote (w : LerobotWriter Value) (frames : List (AlignedFrame Value))
    (w' : LerobotWriter Value) : Prop where
  frameData : w'.frameData = w.frameData ++ frames.map (.fromAlignedFrame · w.episodeIndex)
  episodeIndex : w'.episodeIndex = w.episodeIndex
  episodesPerChunk : w'.episodesPerChunk = w.episodesPerChunk
  decode : w'.decode = w.decode
  metadata : w'.metadata = w.metadata
  totalFrames : w'.totalFrames = w.totalFrames
  parquetFiles : w'.parquetFiles = w.parquetFiles
  videoFiles : w'.videoFiles = w.videoFiles

/-- A flush touches segments and buffers only. -/
theorem flushVideoSegment_keeps (w : LerobotWriter Value) : Wrote w [] w.flushVideoSegment := by
  unfold flushVideoSegment
  split
  · exact ⟨by simp, rfl, rfl, rfl, rfl, rfl, rfl, rfl⟩
  · exact ⟨by simp [counted], rfl, rfl, rfl, rfl, rfl, rfl, rfl⟩

theorem writeFrameAt_wrote (w : LerobotWriter Value) (frame : AlignedFrame Value) (flush : Bool) :
    Wrote w [frame] (w.writeFrameAt frame flush) := by
  cases flush with
  | false => exact ⟨rfl, rfl, rfl, rfl, rfl, rfl, rfl, rfl⟩
  | true =>
    have kept := flushVideoSegment_keeps (w.addFrame frame)
    exact ⟨kept.frameData.trans (by simp [addFrame]), kept.episodeIndex, kept.episodesPerChunk,
      kept.decode, kept.metadata, kept.totalFrames, kept.parquetFiles, kept.videoFiles⟩

theorem writeFrames_wrote (w : LerobotWriter Value) (points : List (AlignedFrame Value × Bool)) :
    Wrote w (points.map Prod.fst) (w.writeFrames points) := by
  induction points generalizing w with
  | nil => exact ⟨by simp [writeFrames], rfl, rfl, rfl, rfl, rfl, rfl, rfl⟩
  | cons point rest ih =>
    have first := w.writeFrameAt_wrote point.1 point.2
    have later := ih (w.writeFrameAt point.1 point.2)
    refine ⟨later.frameData.trans ?_, later.episodeIndex.trans first.episodeIndex,
      later.episodesPerChunk.trans first.episodesPerChunk, later.decode.trans first.decode,
      later.metadata.trans first.metadata, later.totalFrames.trans first.totalFrames,
      later.parquetFiles.trans first.parquetFiles, later.videoFiles.trans first.videoFiles⟩
    rw [first.frameData, first.episodeIndex]
    simp

theorem Stored.writeFrameAt (stored : Stored w) (frame : AlignedFrame Value) (flush : Bool) :
    Stored (w.writeFrameAt frame flush) := by
  have added : Stored (w.addFrame frame) := stored
  cases flush with
  | false => exact added
  | true => exact added.flush

theorem Stored.writeFrames (stored : Stored w) (points : List (AlignedFrame Value × Bool)) :
    Stored (w.writeFrames points) := by
  induction points generalizing w with
  | nil => exact stored
  | cons point rest ih => exact ih (stored.writeFrameAt point.1 point.2)

end LerobotWriter

end Roboflow.Lerobot
