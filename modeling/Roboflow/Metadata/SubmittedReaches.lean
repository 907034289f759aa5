import Roboflow.Metadata.AssembledFiles

/-! What of the submitted metadata reaches the dataset files, over every history of submissions.
Everything that was accepted last is there, but the indices of an `EpisodeStats` come back as
the positions of texts made from them, a feature name is cut at its last slash, the index
features replace registered ones, and a sum of lengths may not fit. -/
namespace Roboflow.Metadata.Assembly
open Library Tikv

variable {Stats : Type} {hashTask : String → String} {batchId : String}
  {store : Kv Bytes (Stored Stats)} {history : Submissions Stats} {files : DatasetFiles Stats}

abbrev SubmissionStep (Stats : Type) :=
  Transition (Kv Bytes (Stored Stats)) (Submission Stats) (Except TikvError SubmissionResult)

/-- The last submission of an episode that was accepted. -/
structure LastSubmission (history : Submissions Stats) (e : SubmissionStep Stats)
    (result : SubmissionResult) : Prop where
  last : ∃ newer older, history = newer ++ e :: older ∧ ∀ other ∈ newer, ∀ otherResult,
    other.out = .ok otherResult → other.act.episodeIndex ≠ e.act.episodeIndex
  accepted : e.out = .ok result

/-- A feature of info.json says what was submitted. -/
def Says (json : FeatureJson) (shape : FeatureShape) : Prop :=
  json.dtype = shape.dtype.val ∧ json.shape = shape.shape.val.map Fin.val

/-- What the files say of the submissions. -/
structure Reaches (history : Submissions Stats) (files : DatasetFiles Stats) : Prop where
  increasing : (files.episodes.map (·.episodeIndex)).Pairwise (· < ·)
  submitted : ∀ line ∈ files.episodes, ∃ e result, LastSubmission history e result ∧
    e.act.episodeIndex = line.episodeIndex
  last : ∀ e result, LastSubmission history e result → ∃ line ∈ files.episodes,
    line.episodeIndex = e.act.episodeIndex ∧ line.length = e.act.frameCount ∧
    line.tasks = result.taskIndices ∧
    ∀ given, e.act.givenIndices = some given → line.tasks = given
  listed : ∀ line ∈ files.episodes, ∀ index ∈ line.tasks, index ∈ files.tasks.map (·.taskIndex)
  totalEpisodes : files.info.totalEpisodes = files.episodes.length
  totalFrames : files.info.totalFrames = (files.episodes.map (·.length)).sum
  features : ∀ e ∈ history, ∀ result, e.out = .ok result → ∀ name shape,
    (name, shape) ∈ e.act.featureShapes →
      ∃ json, files.info.features.get (utf8 name) = some json ∧ Says json shape

/-- What it takes for the files to say it. -/
structure Undistorted (history : Submissions Stats) : Prop where
  /-- The text made from a given index was registered as the text of that index. -/
  indices : ∀ e result, LastSubmission history e result → ∀ given, e.act.givenIndices = some given →
    ∀ index ∈ given, (internAll [] (textsOf history))[index]? = some (taskText index)
  /-- The last lengths of the episodes fit together. -/
  frames : ((catalogueOf history).episodes.entries.map fun entry => entry.2.length).sum < 2 ^ 64
  /-- An accepted name has no slash; an index feature is submitted as what it is, and another
  one is not hidden by a different spec whose longer name ends in it. -/
  names : ∀ e ∈ history, ∀ result, e.out = .ok result → ∀ name shape,
    (name, shape) ∈ e.act.featureShapes → 47 ∉ utf8 name ∧
      (∀ json, (utf8 name, json) ∈ indexFeatures → Says json shape) ∧
      (utf8 name ∉ indexFeatures.map Prod.fst → ∀ other spec,
        Shown (catalogueOf history) (utf8 name) other spec → Says (featureJson spec) shape)

/-! ### Accepted submissions -/

/-- Each submission of a history was answered by the catalogue of those before it. -/
def Answered (history : Submissions Stats) : Prop :=
  ∀ newer e older, history = newer ++ e :: older → e.out = ((catalogueOf older).submit e.act).2

theorem Answered.older {e : SubmissionStep Stats} (answered : Answered (e :: history)) :
    Answered history :=
  fun newer other older split => answered (e :: newer) other older (by rw [split, List.cons_append])

theorem catalogueOf_cons (e : SubmissionStep Stats) (older : Submissions Stats) :
    catalogueOf (e :: older) = ((catalogueOf older).submit e.act).1 := rfl

theorem Catalogue.submit_features (catalogue : Catalogue Stats) (submission : Submission Stats) :
    (catalogue.submit submission).1.features =
      (admitAll catalogue.features submission.featureShapes).1 := by
  simp only [submit]
  split <;> rfl

/-- An accepted submission is recorded, with its texts at their positions and its features
admitted; a rejected one is not. -/
theorem Catalogue.submit_cases (catalogue : Catalogue Stats) (submission : Submission Stats) :
    (∃ cause, (catalogue.submit submission).2 = .error cause ∧
      (catalogue.submit submission).1.episodes = catalogue.episodes) ∨
    ((catalogue.submit submission).2 = .ok ⟨submission.episodeIndex,
        submission.tasks.map (internAll catalogue.texts submission.tasks).idxOf⟩ ∧
      (catalogue.submit submission).1.episodes =
        catalogue.episodes.put submission.episodeIndex submission.metadata ∧
      (admitAll catalogue.features submission.featureShapes).2 = .ok ()) := by
  simp only [submit]
  cases admitted : (admitAll (catalogue.registerAll submission.tasks).features
      submission.featureShapes).2 with
  | error cause => exact .inl ⟨cause, rfl, rfl⟩
  | ok _ => exact .inr ⟨rfl, rfl, admitted⟩

theorem Catalogue.submit_ok {catalogue : Catalogue Stats} {submission : Submission Stats}
    (accepted : (catalogue.submit submission).2 = .ok result) :
    result = ⟨submission.episodeIndex,
        submission.tasks.map (internAll catalogue.texts submission.tasks).idxOf⟩ ∧
      (catalogue.submit submission).1.episodes =
        catalogue.episodes.put submission.episodeIndex submission.metadata ∧
      (admitAll catalogue.features submission.featureShapes).2 = .ok () := by
  rcases catalogue.submit_cases submission with ⟨cause, rejected, -⟩ | ⟨answer, recorded, admitted⟩
  · rw [accepted] at rejected
    cases rejected
  · rw [accepted] at answer
    exact ⟨Except.ok.inj answer, recorded, admitted⟩

theorem Catalogue.submit_error {catalogue : Catalogue Stats} {submission : Submission Stats}
    (rejected : (catalogue.submit submission).2 = .error cause) :
    (catalogue.submit submission).1.episodes = catalogue.episodes := by
  rcases catalogue.submit_cases submission with ⟨-, -, kept⟩ | ⟨answer, -, -⟩
  · exact kept
  · rw [rejected] at answer
    cases answer

theorem lastSubmission_cons {first e : SubmissionStep Stats} {older : Submissions Stats} :
    LastSubmission (first :: older) e result ↔
      (first = e ∧ e.out = .ok result) ∨
        (LastSubmission older e result ∧ ∀ otherResult, first.out = .ok otherResult →
          first.act.episodeIndex ≠ e.act.episodeIndex) := by
  constructor
  · rintro ⟨⟨newer, rest, split, last⟩, accepted⟩
    cases newer with
    | nil =>
      obtain ⟨same, -⟩ := List.cons.inj split
      exact .inl ⟨same, accepted⟩
    | cons newest newer =>
      obtain ⟨rfl, tails⟩ := List.cons.inj split
      exact .inr ⟨⟨⟨newer, rest, tails, fun other member => last other (List.mem_cons_of_mem _ member)⟩,
        accepted⟩, last first List.mem_cons_self⟩
  · rintro (⟨rfl, accepted⟩ | ⟨⟨⟨newer, rest, split, last⟩, accepted⟩, different⟩)
    · exact ⟨⟨[], older, rfl, by simp⟩, accepted⟩
    · refine ⟨⟨first :: newer, rest, by rw [split, List.cons_append], fun other member => ?_⟩, accepted⟩
      rcases List.mem_cons.mp member with rfl | later
      · exact different
      · exact last other later

/-- The episodes of a history are its last submissions. -/
theorem episodes_catalogueOf (answered : Answered history) :
    (catalogueOf history).episodes.get episodeIndex = some metadata ↔
      ∃ e result, LastSubmission history e result ∧ e.act.episodeIndex = episodeIndex ∧
        e.act.metadata = metadata := by
  induction history with
  | nil =>
    simp only [catalogueOf, List.foldr_nil, Catalogue.empty, Kv.get_empty, reduceCtorEq, false_iff]
    rintro ⟨e, result, ⟨⟨newer, older, split, -⟩, -⟩, -⟩
    simp at split
  | cons first older ih =>
    have answer := answered [] first older rfl
    have ih := ih answered.older
    rw [catalogueOf_cons]
    cases out : first.out with
    | error cause =>
      rw [Catalogue.submit_error (answer.symm.trans out), ih]
      constructor
      · rintro ⟨e, result, last, same⟩
        exact ⟨e, result, lastSubmission_cons.mpr (.inr ⟨last, by simp [out]⟩), same⟩
      · rintro ⟨e, result, last, same⟩
        rcases lastSubmission_cons.mp last with ⟨rfl, accepted⟩ | ⟨earlier, -⟩
        · rw [out] at accepted
          cases accepted
        · exact ⟨e, result, earlier, same⟩
    | ok answered =>
      rw [(Catalogue.submit_ok (answer.symm.trans out)).2.1, Kv.get_put]
      by_cases own : episodeIndex = first.act.episodeIndex
      · rw [if_pos own]
        constructor
        · intro same
          exact ⟨first, answered, lastSubmission_cons.mpr (.inl ⟨rfl, out⟩), own.symm, Option.some.inj same⟩
        · rintro ⟨e, result, last, index, rfl⟩
          rcases lastSubmission_cons.mp last with ⟨rfl, -⟩ | ⟨-, different⟩
          · rfl
          · exact absurd (own.symm.trans index.symm) (different answered out)
      · rw [if_neg own, ih]
        constructor
        · rintro ⟨e, result, last, index, same⟩
          exact ⟨e, result, lastSubmission_cons.mpr (.inr ⟨last, fun _ _ equal =>
            own (index.symm.trans equal.symm)⟩), index, same⟩
        · rintro ⟨e, result, last, index, same⟩
          rcases lastSubmission_cons.mp last with ⟨rfl, -⟩ | ⟨earlier, -⟩
          · exact absurd index.symm own
          · exact ⟨e, result, earlier, index, same⟩

/-- The indices returned are the positions among all texts of the history. -/
theorem taskIndices_eq (answered : Answered history) {e : SubmissionStep Stats} (member : e ∈ history)
    (accepted : e.out = .ok result) :
    result.taskIndices = e.act.tasks.map (catalogueOf history).texts.idxOf ∧
      ∀ text ∈ e.act.tasks, text ∈ (catalogueOf history).texts := by
  obtain ⟨newer, older, rfl⟩ := List.append_of_mem member
  have answer := answered newer e older rfl
  obtain ⟨rfl, -, -⟩ := Catalogue.submit_ok (answer.symm.trans accepted)
  have parts : textsOf (newer ++ e :: older) = textsOf (e :: older) ++ textsOf newer := by
    simp [textsOf]
  have grown : internAll (catalogueOf older).texts e.act.tasks <+: (catalogueOf (newer ++ e :: older)).texts := by
    rw [← Catalogue.submit_texts, ← catalogueOf_cons, catalogueOf_texts, catalogueOf_texts, parts,
      internAll_append]
    exact prefix_internAll _ _
  have known : ∀ text ∈ e.act.tasks, text ∈ internAll (catalogueOf older).texts e.act.tasks :=
    fun text listed => mem_internAll.mpr (.inr listed)
  refine ⟨List.map_congr_left fun text listed => ?_, fun text listed => grown.subset (known text listed)⟩
  exact (idxOf_grown grown (known text listed)).symm

/-! ### Accepted features -/

theorem says_of_compatible {spec : FeatureSpec} {shape : FeatureShape}
    (compatible : spec.isCompatible shape.toSpec = true) : Says (featureJson spec) shape := by
  obtain ⟨dtype, dimensions⟩ : spec.dtype = shape.dtype ∧ spec.shape = shape.shape := by
    simpa [FeatureSpec.isCompatible, FeatureShape.toSpec] using compatible
  rw [Says, featureJson, ← dtype, ← dimensions]
  split
  · rename_i video
    exact ⟨video.symm, rfl⟩
  · exact ⟨rfl, rfl⟩

theorem admit_keeps (shapes : List (String × FeatureShape)) {features : Kv String FeatureSpec}
    (stored : features.get name = some spec) : (admitAll features shapes).1.get name = some spec := by
  induction shapes generalizing features with
  | nil => exact stored
  | cons first rest ih =>
    simp only [admitAll]
    cases found : features.get first.1 with
    | none =>
      refine ih ?_
      rw [Kv.get_put_ne _ fun same => ?_]
      · exact stored
      · rw [same, found] at stored
        cases stored
    | some existing =>
      simp only
      split
      · exact ih stored
      · exact stored

/-- An admitted feature is stored with a spec like its own. -/
theorem admit_ok {shapes : List (String × FeatureShape)} {features : Kv String FeatureSpec}
    (admitted : (admitAll features shapes).2 = .ok ()) (member : (name, shape) ∈ shapes) :
    ∃ spec, (admitAll features shapes).1.get name = some spec ∧ Says (featureJson spec) shape := by
  induction shapes generalizing features with
  | nil => cases member
  | cons first rest ih =>
    simp only [admitAll] at admitted ⊢
    cases found : features.get first.1 with
    | none =>
      rw [found] at admitted
      simp only at admitted ⊢
      rcases List.mem_cons.mp member with rfl | later
      · refine ⟨shape.toSpec, admit_keeps rest (Kv.get_put_self _ _ _), says_of_compatible ?_⟩
        simp [FeatureSpec.isCompatible]
      · exact ih admitted later
    | some existing =>
      rw [found] at admitted
      simp only at admitted ⊢
      split at admitted
      · rename_i compatible
        rw [if_pos compatible]
        rcases List.mem_cons.mp member with rfl | later
        · exact ⟨existing, admit_keeps rest found, says_of_compatible compatible⟩
        · exact ih admitted later
      · cases admitted

theorem features_kept (newer : Submissions Stats) {older : Submissions Stats}
    (stored : (catalogueOf older).features.get name = some spec) :
    (catalogueOf (newer ++ older)).features.get name = some spec := by
  induction newer with
  | nil => exact stored
  | cons first rest ih =>
    rw [List.cons_append, catalogueOf_cons, Catalogue.submit_features]
    exact admit_keeps _ ih

theorem accepted_feature (answered : Answered history) {e : SubmissionStep Stats} (member : e ∈ history)
    (accepted : e.out = .ok result) (given : (name, shape) ∈ e.act.featureShapes) :
    ∃ spec, (catalogueOf history).features.get name = some spec ∧ Says (featureJson spec) shape := by
  obtain ⟨newer, older, rfl⟩ := List.append_of_mem member
  obtain ⟨-, -, admitted⟩ := Catalogue.submit_ok ((answered newer e older rfl).symm.trans accepted)
  obtain ⟨spec, stored, same⟩ := admit_ok admitted given
  refine ⟨spec, features_kept newer ?_, same⟩
  rwa [catalogueOf_cons, Catalogue.submit_features]

/-- Of the names that end in a label one is the greatest. -/
theorem exists_shown {catalogue : Catalogue Stats} (stored : catalogue.features.get name = some spec) :
    ∃ other otherSpec, Shown catalogue (lastSegment (utf8 name)) other otherSpec := by
  let ending := catalogue.features.entries.toFinset.filter fun entry =>
    lastSegment (utf8 entry.1) = lastSegment (utf8 name)
  have mem_ending : ∀ other otherSpec, (other, otherSpec) ∈ ending ↔
      catalogue.features.get other = some otherSpec ∧ lastSegment (utf8 other) = lastSegment (utf8 name) := by
    intro other otherSpec
    rw [Finset.mem_filter, List.mem_toFinset, Kv.mem_entries]
  have member := (mem_ending name spec).mpr ⟨stored, rfl⟩
  obtain ⟨⟨other, otherSpec⟩, greatest, above⟩ :=
    Finset.exists_max_image ending (fun entry => utf8 entry.1) ⟨_, member⟩
  obtain ⟨otherStored, segment⟩ := (mem_ending other otherSpec).mp greatest
  exact ⟨other, otherSpec, otherStored, segment, fun third thirdSpec held ends =>
    above (third, thirdSpec) ((mem_ending third thirdSpec).mpr ⟨held, ends⟩)⟩

/-! ### The files -/

theorem tasks_of_givenIndices {submission : Submission Stats}
    (with_ : submission.givenIndices = some given) : submission.tasks = given.map taskText := by
  cases submission with
  | submitEpisode _ _ _ _ _ => cases with_
  | submitEpisodeWithStats _ _ _ =>
    cases with_
    rfl

theorem LastSubmission.mem {e : SubmissionStep Stats} (last : LastSubmission history e result) :
    e ∈ history := by
  obtain ⟨newer, older, rfl, -⟩ := last.last
  exact List.mem_append_right _ List.mem_cons_self

/-- The texts made from indices stand at these exactly if their positions are the indices. -/
theorem positions_eq_iff {texts : List String} (distinct : texts.Nodup) (given : List Nat)
    (known : ∀ text ∈ given.map taskText, text ∈ texts) :
    (given.map taskText).map texts.idxOf = given ↔
      ∀ index ∈ given, texts[index]? = some (taskText index) := by
  rw [List.map_map]
  nth_rewrite 2 [← List.map_id given]
  rw [List.map_inj_left]
  refine forall₂_congr fun index member => ?_
  exact idxOf_eq_iff distinct (known _ (List.mem_map_of_mem member)) index

theorem slash_notMem_indexFeatures : ∀ label ∈ indexFeatures.map Prod.fst, 47 ∉ label := by decide

section Files
variable (answered : Answered history) (assembled : Assembled (catalogueOf history) files)
include answered assembled

/-- The line of a last submission. -/
theorem line_of_last {e : SubmissionStep Stats} (last : LastSubmission history e result) :
    (⟨e.act.episodeIndex, e.act.frameCount, result.taskIndices⟩ : EpisodeInfo) ∈ files.episodes := by
  have stored := (episodes_catalogueOf answered).mpr ⟨e, result, last, rfl, rfl⟩
  rw [assembled.episodes, (taskIndices_eq answered last.mem last.accepted).1]
  exact List.mem_map.mpr ⟨_, (Kv.mem_entries _).mpr stored, rfl⟩

/-- Each line is that of a last submission. -/
theorem last_of_line {line : EpisodeInfo} (member : line ∈ files.episodes) :
    ∃ e result, LastSubmission history e result ∧
      line = ⟨e.act.episodeIndex, e.act.frameCount, result.taskIndices⟩ := by
  rw [assembled.episodes] at member
  obtain ⟨⟨episodeIndex, metadata⟩, stored, rfl⟩ := List.mem_map.mp member
  obtain ⟨e, result, last, rfl, rfl⟩ := (episodes_catalogueOf answered).mp ((Kv.mem_entries _).mp stored)
  exact ⟨e, result, last, by rw [(taskIndices_eq answered last.mem last.accepted).1]; rfl⟩

omit answered in
theorem episodes_increasing : (files.episodes.map (·.episodeIndex)).Pairwise (· < ·) := by
  rw [assembled.episodes, List.map_map]
  exact List.pairwise_map.mpr (catalogueOf history).episodes.sorted

omit answered in
theorem lengths_eq : (files.episodes.map (·.length)).sum =
    ((catalogueOf history).episodes.entries.map fun entry => entry.2.length).sum := by
  rw [assembled.episodes, List.map_map]
  rfl

theorem undistorted_of_reaches (reaches : Reaches history files) : Undistorted history := by
  refine ⟨fun e result last given with_ => ?_, ?_, fun e member result accepted name shape given => ?_⟩
  · obtain ⟨positions, known⟩ := taskIndices_eq answered last.mem last.accepted
    obtain ⟨line, -, -, -, returned, written⟩ := reaches.last e result last
    rw [tasks_of_givenIndices with_] at positions known
    rw [← catalogueOf_texts]
    refine (positions_eq_iff (catalogueOf history).distinct given known).mp ?_
    rw [← positions, ← returned, written given with_]
  · have fits := reaches.totalFrames
    rw [assembled.totalFrames, lengths_eq assembled] at fits
    rw [← fits]
    exact Nat.mod_lt _ (by decide)
  · obtain ⟨json, read, same⟩ := reaches.features e member result accepted name shape given
    refine ⟨?_, fun index reserved => ?_, fun own other spec shown => ?_⟩
    · by_cases own : utf8 name ∈ indexFeatures.map Prod.fst
      · exact slash_notMem_indexFeatures _ own
      · obtain ⟨other, spec, shown, -⟩ := (assembled.features _ own json).mp read
        rw [← shown.segment]
        exact slash_notMem_lastSegment _
    · rw [assembled.indices _ index reserved] at read
      cases read
      exact same
    · rw [(assembled.features _ own _).mpr ⟨other, spec, shown, rfl⟩] at read
      cases read
      exact same

theorem reaches_of_undistorted (undistorted : Undistorted history) : Reaches history files := by
  refine
    { increasing := episodes_increasing assembled
      submitted := fun line member => ?_
      last := fun e result last =>
        ⟨_, line_of_last answered assembled last, rfl, rfl, rfl, fun given with_ => ?_⟩
      listed := fun line member index listed => ?_
      totalEpisodes := ?_
      totalFrames := ?_
      features := fun e member result accepted name shape given => ?_ }
  · obtain ⟨e, result, last, rfl⟩ := last_of_line answered assembled member
    exact ⟨e, result, last, rfl⟩
  · obtain ⟨positions, known⟩ := taskIndices_eq answered last.mem last.accepted
    rw [tasks_of_givenIndices with_] at positions known
    rw [positions, positions_eq_iff (catalogueOf history).distinct given known, catalogueOf_texts]
    exact undistorted.indices e result last given with_
  · obtain ⟨e, result, last, rfl⟩ := last_of_line answered assembled member
    obtain ⟨positions, known⟩ := taskIndices_eq answered last.mem last.accepted
    rw [positions] at listed
    obtain ⟨text, given, rfl⟩ := List.mem_map.mp listed
    have found := (idxOf_eq_iff (catalogueOf history).distinct (known text given) _).mp rfl
    exact List.mem_map.mpr ⟨⟨_, text⟩, (assembled.tasks _).mpr found, rfl⟩
  · rw [assembled.totalEpisodes, assembled.episodes, List.length_map]
  · rw [assembled.totalFrames, lengths_eq assembled, Nat.mod_eq_of_lt undistorted.frames]
  · obtain ⟨free, reserved, others⟩ := undistorted.names e member result accepted name shape given
    by_cases own : utf8 name ∈ indexFeatures.map Prod.fst
    · obtain ⟨⟨label, json⟩, listed, named⟩ := List.mem_map.mp own
      cases named
      exact ⟨json, assembled.indices _ json listed, reserved json listed⟩
    · obtain ⟨spec, stored, -⟩ := accepted_feature answered member accepted given
      obtain ⟨other, otherSpec, shown⟩ := exists_shown stored
      rw [(lastSegment_eq_self_iff _).mpr free] at shown
      exact ⟨_, (assembled.features _ own _).mpr ⟨other, otherSpec, shown, rfl⟩, others own other otherSpec shown⟩

end Files

/-- After an accepted submission some submission is the last of its episode. -/
theorem exists_last {e : SubmissionStep Stats} (member : e ∈ history) (accepted : e.out = .ok result) :
    ∃ last lastResult, LastSubmission history last lastResult := by
  induction history with
  | nil => cases member
  | cons first older ih =>
    cases out : first.out with
    | ok newest => exact ⟨first, newest, lastSubmission_cons.mpr (.inl ⟨rfl, out⟩)⟩
    | error cause =>
      rcases List.mem_cons.mp member with rfl | earlier
      · rw [out] at accepted
        cases accepted
      · obtain ⟨last, lastResult, is⟩ := ih earlier
        exact ⟨last, lastResult, lastSubmission_cons.mpr (.inr ⟨is, by simp [out]⟩)⟩

theorem undistorted_of_none (answered : Answered history)
    (none_ : ∀ e ∈ history, ∀ result, e.out ≠ .ok result) : Undistorted history := by
  refine ⟨fun e result last => absurd last.accepted (none_ e last.mem result), ?_,
    fun e member result accepted => absurd accepted (none_ e member result)⟩
  have empty : (catalogueOf history).episodes.entries = [] := by
    refine List.eq_nil_iff_forall_not_mem.mpr fun entry member => ?_
    obtain ⟨e, result, last, -⟩ := (episodes_catalogueOf answered).mp ((Kv.mem_entries _).mp member)
    exact none_ e last.mem result last.accepted
  rw [empty, List.map_nil, List.sum_nil]
  exact Nat.two_pow_pos 64

/-- After any sequence of submissions, run one at a time from an empty batch, the files that are
assembled say what was submitted exactly if nothing of it is distorted. -/
theorem submitted_metadata_reaches_iff (hashTask : String → String) (batchId : String)
    (history : Submissions Stats) (store : Kv Bytes (Stored Stats))
    (run : Run (submissions hashTask batchId) .empty history store)
    (apart : Apart hashTask (textsOf history)) (room : Room batchId store)
    (datasetName : String) (robotType : Option String) (fps : Nat) :
    ((∃ e ∈ history, ∃ result, e.out = .ok result) →
        ∃ files, assembleAndWrite batchId store datasetName robotType fps = .ok files ∧
          Reaches history files) ↔
      Undistorted history := by
  have answered : Answered history := by
    rintro newer e older rfl
    exact submissions_answer run apart
  by_cases some_ : ∃ e ∈ history, ∃ result, e.out = .ok result
  · obtain ⟨e, member, result, accepted⟩ := some_
    have stores := submissions_stores run apart
    have known : ∀ entry ∈ (catalogueOf history).episodes.entries, ∀ text ∈ entry.2.tasks,
        text ∈ (catalogueOf history).texts := by
      rintro entry listed
      obtain ⟨e, result, last, -, same⟩ := (episodes_catalogueOf answered).mp ((Kv.mem_entries _).mp listed)
      rw [← same]
      exact (taskIndices_eq answered last.mem last.accepted).2
    have nonempty : (catalogueOf history).episodes.entries ≠ [] := by
      obtain ⟨last, lastResult, is⟩ := exists_last member accepted
      exact List.ne_nil_of_mem ((Kv.mem_entries _).mpr
        ((episodes_catalogueOf answered).mpr ⟨last, lastResult, is, rfl, rfl⟩))
    have apartTexts : Apart hashTask (catalogueOf history).texts := by
      rw [catalogueOf_texts]
      exact apart.mono fun text listed => by simpa [mem_internAll] using listed
    obtain ⟨files, written, assembled⟩ :=
      assembleAndWrite_assembled stores room apartTexts nonempty known datasetName robotType fps
    constructor
    · intro reached
      obtain ⟨others, also, reaches⟩ := reached ⟨e, member, result, accepted⟩
      cases written.symm.trans also
      exact undistorted_of_reaches answered assembled reaches
    · intro undistorted _
      exact ⟨files, written, reaches_of_undistorted answered assembled undistorted⟩
  · constructor
    · intro _
      refine undistorted_of_none answered fun e member result accepted => ?_
      exact some_ ⟨e, member, result, accepted⟩
    · intro _ accepted
      exact absurd accepted some_

theorem float32_fits : (utf8 "float32").length < 256 ^ 8 := by decide

theorem one_dimension_fits : ([7] : List Codec.U64).length < 256 ^ 8 := by decide

/-- A vector of seven numbers. -/
def sevenNumbers : FeatureShape :=
  { dtype := ⟨"float32", float32_fits⟩, shape := ⟨[7], one_dimension_fits⟩, isVideo := false }

/-- An episode of five frames with an `EpisodeStats` of one task index. -/
def withIndex (index : Nat) : Submission Unit :=
  .submitEpisodeWithStats 3 ⟨5, (), [index]⟩ [("action", sevenNumbers)]

/-- The store after one such episode. -/
def storeWith (index : Nat) : Kv Bytes (Stored Unit) :=
  (submitEpisode id "b" .empty 3 5 [taskText index] [("action", sevenNumbers)] ()).1

theorem storeWith_moved (index : Nat) :
    (submissions id "b").step .empty (withIndex index) = some (storeWith index, .ok ⟨3, [0]⟩) := rfl

/-- One such episode with the only index whose text it registers itself. -/
theorem first_index_reaches :
    ∃ history store, Run (submissions id "b") .empty history store ∧
      (∃ e ∈ history, ∃ result, e.out = .ok result) ∧
      ∃ files, assembleAndWrite "b" store "d" none 30 = .ok files ∧
        Reaches (history : Submissions Unit) files := by
  have run := Run.start.move (withIndex 0) _ _ (storeWith_moved 0)
  have room : Room "b" (storeWith 0) :=
    ⟨by decide +kernel, by decide +kernel, by decide +kernel⟩
  have accepted : ∃ e ∈ [(⟨.empty, withIndex 0, .ok ⟨3, [0]⟩, storeWith 0⟩ : SubmissionStep Unit)],
      ∃ result, e.out = .ok result := ⟨_, List.mem_singleton_self _, _, rfl⟩
  refine ⟨_, _, run, accepted, (submitted_metadata_reaches_iff id "b" _ _ run
    (fun _ _ _ _ same => same) room "d" none 30).mpr ?_ accepted⟩
  have features : ∀ other spec, (catalogueOf [(⟨.empty, withIndex 0, .ok ⟨3, [0]⟩, storeWith 0⟩ :
      SubmissionStep Unit)]).features.get other = some spec → spec = sevenNumbers.toSpec := by
    intro other spec stored
    change (Kv.empty.put "action" sevenNumbers.toSpec).get other = some spec at stored
    rw [Kv.get_put] at stored
    split at stored
    · exact (Option.some.inj stored).symm
    · cases stored
  refine ⟨fun e result last given with_ index member => ?_, by decide +kernel,
    fun e member result _ name shape given => ?_⟩
  · have only := List.mem_singleton.mp last.mem
    subst only
    cases with_
    cases List.mem_singleton.mp member
    decide +kernel
  · cases List.mem_singleton.mp member
    cases List.mem_singleton.mp given
    have own : utf8 "action" ∉ indexFeatures.map Prod.fst := by decide
    refine ⟨by decide, fun json reserved => absurd (List.mem_map_of_mem (f := Prod.fst) reserved) own,
      fun _ other spec shown => ?_⟩
    rw [features other spec shown.stored]
    exact ⟨rfl, rfl⟩

/-- Task 5 of an `EpisodeStats` is the first text of its batch. -/
theorem given_index_lost :
    ∃ history store, Run (submissions id "b") .empty history store ∧
      (∃ e ∈ history, ∃ result, e.out = .ok result) ∧
      ¬ ∃ files, assembleAndWrite "b" store "d" none 30 = .ok files ∧
        Reaches (history : Submissions Unit) files := by
  refine ⟨_, _, Run.start.move (withIndex 5) _ _ (storeWith_moved 5), ⟨_, List.mem_cons_self, _, rfl⟩, ?_⟩
  rintro ⟨files, written, reaches⟩
  have lines : (assembleAndWrite "b" (storeWith 5) "d" none 30).toOption.map (·.episodes) =
      some [⟨3, 5, [0]⟩] := by decide +kernel
  rw [written] at lines
  obtain ⟨line, member, -, -, -, given⟩ :=
    reaches.last _ ⟨3, [0]⟩ ⟨⟨[], [], rfl, by simp⟩, rfl⟩
  rw [show files.episodes = _ from Option.some.inj lines, List.mem_singleton] at member
  rw [member] at given
  exact absurd (given [5] rfl) (by decide)

end Roboflow.Metadata.Assembly
