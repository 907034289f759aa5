import Roboflow.Metadata.Catalogue

/-! What the assembler reads back from a store that holds a catalogue: the episodes in the order
of their indices, the texts in the order of theirs, and the features under what follows the last
slash of their names. -/
namespace Roboflow.Metadata.Assembly
open Library Tikv

variable {Stats : Type} {hashTask : String → String} {batchId : String}
  {store : Kv Bytes (Stored Stats)} {catalogue : Catalogue Stats}
  {value : MetadataKey → Option (Stored Stats)}

/-! ### Scans -/

/-- Each scan has room for all that is stored of its kind. -/
structure Room (batchId : String) (store : Kv Bytes (Stored Stats)) : Prop where
  episodes : (store.entries.filter fun entry => inScan (episodeMetadataPrefix batchId) entry.1).length ≤ 100000
  tasks : (store.entries.filter fun entry => inScan (taskPrefix batchId) entry.1).length ≤ 10000
  features : (store.entries.filter fun entry => inScan (featurePrefix batchId) entry.1).length ≤ 1000

/-- A scan picks what is stored under the keys of its range. -/
theorem mem_picked {pick : Stored Stats → Option α} {x : α} (stores : Stores batchId store value)
    (room : (store.entries.filter fun entry => inScan start entry.1).length ≤ limit) :
    x ∈ (scan store start limit).filterMap (fun pair => pick pair.2) ↔
      ∃ key stored, value key = some stored ∧ inScan start (key.bytes batchId) = true ∧
        pick stored = some x := by
  rw [List.mem_filterMap]
  constructor
  · rintro ⟨⟨bytes, stored⟩, member, picked⟩
    obtain ⟨read, inside⟩ := (Kv.mem_scan room).mp member
    obtain ⟨key, rfl⟩ := stores.keys bytes (by rw [read]; rfl)
    rw [stores.values] at read
    exact ⟨key, stored, read, inside, picked⟩
  · rintro ⟨key, stored, held, inside, picked⟩
    rw [← stores.values] at held
    exact ⟨(key.bytes batchId, stored), (Kv.mem_scan room).mpr ⟨held, inside⟩, picked⟩

/-- What a scan picks differs in a number that tells the keys apart. -/
theorem picked_distinct {pick : Stored Stats → Option α} {number : α → Nat}
    (stores : Stores batchId store value)
    (apart : ∀ key other stored otherStored x y, value key = some stored →
      value other = some otherStored → pick stored = some x → pick otherStored = some y →
      number x = number y → key = other) (start : Bytes) (limit : Nat) :
    ((scan store start limit).filterMap fun pair => pick pair.2).Pairwise
      fun first second => number first ≠ number second := by
  have ascending : (scan store start limit).Pairwise fun first second => first.1 < second.1 :=
    (store.sorted.filter _).sublist (List.take_sublist _ _)
  have stored : ∀ pair ∈ scan store start limit, store.get pair.1 = some pair.2 := fun pair member =>
    (Kv.mem_entries store).mp (List.mem_of_mem_filter (List.mem_of_mem_take member))
  refine List.pairwise_filterMap.mpr (ascending.imp_of_mem ?_)
  rintro ⟨bytes, held⟩ ⟨otherBytes, otherHeld⟩ member otherMember before x picked y otherPicked same
  have read := stored _ member
  have otherRead := stored _ otherMember
  obtain ⟨key, rfl⟩ := stores.keys bytes (by rw [read]; rfl)
  obtain ⟨other, rfl⟩ := stores.keys otherBytes (by rw [otherRead]; rfl)
  rw [stores.values] at read otherRead
  have equal := apart key other held otherHeld x y read otherRead picked otherPicked same
  rw [equal] at before
  exact lt_irrefl _ before

theorem value_episode {key : MetadataKey} {metadata : PartialEpisodeMetadata Stats} :
    (∃ stored, catalogue.value hashTask key = some stored ∧ stored.episode? = some metadata) ↔
      key = .episode metadata.episodeIndex ∧
        catalogue.episodes.get metadata.episodeIndex = some metadata := by
  constructor
  · rintro ⟨stored, held, picked⟩
    cases key with
    | episode episodeIndex =>
      obtain ⟨found, read, rfl⟩ := Option.map_eq_some_iff.mp held
      cases picked
      have index := catalogue.indexed episodeIndex metadata read
      exact ⟨by rw [index], by rw [index]; exact read⟩
    | taskCounter =>
      simp only [Catalogue.value] at held
      split at held <;> cases held
      cases picked
    | task taskHash =>
      obtain ⟨text, -, rfl⟩ := Option.map_eq_some_iff.mp held
      cases picked
    | feature name =>
      obtain ⟨spec, -, rfl⟩ := Option.map_eq_some_iff.mp held
      cases picked
  · rintro ⟨rfl, read⟩
    exact ⟨.episode metadata, by simp [Catalogue.value, read], rfl⟩

/-- The episodes come back in the order of their indices. -/
theorem scanEpisodeMetadata_eq (stores : Stores batchId store (catalogue.value hashTask))
    (room : Room batchId store) :
    scanEpisodeMetadata batchId store = catalogue.episodes.entries.map Prod.snd := by
  have index : ∀ entry ∈ catalogue.episodes.entries, entry.2.episodeIndex = entry.1 :=
    fun entry member => catalogue.indexed entry.1 entry.2 ((Kv.mem_entries _).mp member)
  refine eq_of_increasing PartialEpisodeMetadata.episodeIndex ?_ ?_ fun metadata => ?_
  · refine pairwise_lt_sortByKey (picked_distinct stores ?_ _ _)
    intro key other stored otherStored x y held otherHeld picked otherPicked same
    rw [(value_episode.mp ⟨stored, held, picked⟩).1, (value_episode.mp ⟨otherStored, otherHeld, otherPicked⟩).1,
      same]
  · refine List.pairwise_map.mpr (catalogue.episodes.sorted.imp_of_mem ?_)
    intro first second member otherMember before
    rwa [index first member, index second otherMember]
  · rw [scanEpisodeMetadata, (perm_sortByKey _ _).mem_iff, mem_picked stores room.episodes, List.mem_map]
    constructor
    · rintro ⟨key, stored, held, -, picked⟩
      exact ⟨(_, metadata), (Kv.mem_entries _).mpr (value_episode.mp ⟨stored, held, picked⟩).2, rfl⟩
    · rintro ⟨⟨episodeIndex, found⟩, member, rfl⟩
      have read := (Kv.mem_entries _).mp member
      have same := index _ member
      simp only at same
      rw [← same] at read
      obtain ⟨stored, held, picked⟩ := value_episode.mpr ⟨rfl, read⟩
      exact ⟨_, stored, held, (inScan_episodes _).mpr ⟨_, rfl⟩, picked⟩

/-! ### Tasks -/

theorem value_task {key : MetadataKey} {entry : TaskEntry} (apart : Apart hashTask catalogue.texts) :
    (∃ stored, catalogue.value hashTask key = some stored ∧ stored.task? = some entry) ↔
      key = .task (hashTask entry.task) ∧ catalogue.texts[entry.taskIndex]? = some entry.task := by
  constructor
  · rintro ⟨stored, held, picked⟩
    cases key with
    | task taskHash =>
      obtain ⟨text, found, rfl⟩ := Option.map_eq_some_iff.mp held
      cases picked
      have own : hashTask text = taskHash := by simpa using List.find?_some found
      have known := List.mem_of_find?_eq_some found
      exact ⟨by rw [own], (idxOf_eq_iff catalogue.distinct known _).mp rfl⟩
    | taskCounter =>
      simp only [Catalogue.value] at held
      split at held <;> cases held
      cases picked
    | feature name =>
      obtain ⟨spec, -, rfl⟩ := Option.map_eq_some_iff.mp held
      cases picked
    | episode episodeIndex =>
      obtain ⟨metadata, -, rfl⟩ := Option.map_eq_some_iff.mp held
      cases picked
  · rintro ⟨rfl, found⟩
    have known := List.mem_of_getElem? found
    have index := (idxOf_eq_iff catalogue.distinct known _).mpr found
    refine ⟨.task entry, ?_, rfl⟩
    rw [Catalogue.value_task_known known (apart.mono (by simp [known])), index]

theorem mem_scanTasks {entry : TaskEntry} (stores : Stores batchId store (catalogue.value hashTask))
    (room : Room batchId store) (apart : Apart hashTask catalogue.texts) :
    entry ∈ scanTasks batchId store ↔ catalogue.texts[entry.taskIndex]? = some entry.task := by
  rw [scanTasks, (perm_sortByKey _ _).mem_iff, mem_picked stores room.tasks]
  constructor
  · rintro ⟨key, stored, held, -, picked⟩
    exact ((value_task apart).mp ⟨stored, held, picked⟩).2
  · intro found
    obtain ⟨stored, held, picked⟩ := (value_task apart).mpr ⟨rfl, found⟩
    exact ⟨_, stored, held, (inScan_tasks _).mpr ⟨_, rfl⟩, picked⟩

/-- A known text is looked up by its position. -/
theorem taskMap_get (stores : Stores batchId store (catalogue.value hashTask))
    (room : Room batchId store) (apart : Apart hashTask catalogue.texts) (known : text ∈ catalogue.texts) :
    (taskMap (scanTasks batchId store)).get text = some (catalogue.texts.idxOf text) := by
  have listed : (⟨catalogue.texts.idxOf text, text⟩ : TaskEntry) ∈ scanTasks batchId store :=
    (mem_scanTasks stores room apart).mpr ((idxOf_eq_iff catalogue.distinct known _).mp rfl)
  have written : text ∈ ((scanTasks batchId store).map fun entry => (entry.task, entry.taskIndex)).map Prod.fst := by
    rw [List.map_map]
    exact List.mem_map.mpr ⟨_, listed, rfl⟩
  obtain ⟨index, member, read⟩ := Kv.get_putAll_of_mem (Kv.empty : Kv String Nat) written
  obtain ⟨entry, inTasks, named⟩ := List.mem_map.mp member
  cases named
  have found := (mem_scanTasks stores room apart).mp inTasks
  rw [taskMap, read, (idxOf_eq_iff catalogue.distinct known _).mpr found]

/-! ### Features -/

/-- Only what follows the last slash matters. -/
theorem lastSegment_append (start tail : Bytes) : lastSegment (start ++ 47 :: tail) = lastSegment tail := by
  unfold lastSegment
  rw [List.reverse_append, List.reverse_cons, List.append_assoc, List.singleton_append,
    List.takeWhile_append]
  split
  · rename_i whole
    have none_ : tail.reverse.takeWhile (· ≠ 47) = tail.reverse :=
      List.IsPrefix.eq_of_length (List.takeWhile_prefix _) whole
    rw [none_, List.takeWhile_cons_of_neg (by simp), List.append_nil]
  · rfl

/-- A name without a slash is its own last segment, and every last segment is one. -/
theorem lastSegment_eq_self_iff (name : Bytes) : lastSegment name = name ↔ 47 ∉ name := by
  unfold lastSegment
  rw [List.reverse_eq_iff, List.takeWhile_eq_self_iff]
  simp only [List.mem_reverse, ne_eq, decide_not, Bool.not_eq_true', decide_eq_false_iff_not]
  exact ⟨fun all member => all 47 member rfl, fun free byte member same => free (same ▸ member)⟩

theorem slash_notMem_lastSegment (name : Bytes) : 47 ∉ lastSegment name := by
  intro member
  have free := List.mem_takeWhile_imp (List.mem_reverse.mp member)
  simp at free

theorem lastSegment_featureKey (batchId name : String) :
    lastSegment (featureKey batchId name) = lastSegment (utf8 name) := by
  have start : featureKey batchId name =
      utf8 (metadataPrefix ++ "/" ++ batchId ++ "/features") ++ 47 :: utf8 name := by
    have slash : utf8 "/features/" = utf8 "/features" ++ [47] := by decide
    rw [featureKey, utf8_append _ name, utf8_append _ "/features/", slash, utf8_append _ "/features"]
    simp
  rw [start, lastSegment_append]

/-- A spec is stored under a name that ends in the label, the greatest such name. -/
structure Shown (catalogue : Catalogue Stats) (label : Bytes) (name : String) (spec : FeatureSpec) :
    Prop where
  stored : catalogue.features.get name = some spec
  segment : lastSegment (utf8 name) = label
  last : ∀ other otherSpec, catalogue.features.get other = some otherSpec →
    lastSegment (utf8 other) = label → utf8 other ≤ utf8 name

/-- Pairs that are all features are put under their last segments. -/
theorem collectStored_ok (features : Kv Bytes FeatureSpec) (entries : List (Bytes × Stored Stats))
    (described : ∀ entry ∈ entries, ∃ spec, entry.2 = .feature spec) :
    ∃ pairs : List (Bytes × FeatureSpec), entries = pairs.map (fun pair => (pair.1, .feature pair.2)) ∧
      collectStored features entries =
        .ok (features.putAll (pairs.map fun pair => (lastSegment pair.1, pair.2))) := by
  induction entries generalizing features with
  | nil => exact ⟨[], rfl, rfl⟩
  | cons entry rest ih =>
    obtain ⟨key, stored⟩ := entry
    obtain ⟨spec, rfl⟩ := described _ List.mem_cons_self
    obtain ⟨pairs, same, collected⟩ := ih (features.put (lastSegment key) spec)
      fun other member => described other (List.mem_cons_of_mem _ member)
    refine ⟨(key, spec) :: pairs, by rw [same]; rfl, ?_⟩
    rw [collectStored, collected]
    rfl

theorem Shown.unique (shown : Shown catalogue label name spec)
    (also : Shown catalogue label otherName otherSpec) : spec = otherSpec := by
  have least := also.last name spec shown.stored shown.segment
  have most := shown.last otherName otherSpec also.stored also.segment
  have same := utf8_injective (le_antisymm least most)
  exact Option.some.inj (shown.stored.symm.trans ((congrArg _ same).trans also.stored))

theorem mem_scan_features (stores : Stores batchId store (catalogue.value hashTask))
    (room : Room batchId store) (bytes : Bytes) (stored : Stored Stats) :
    (bytes, stored) ∈ scan store (featurePrefix batchId) 1000 ↔
      ∃ name spec, bytes = featureKey batchId name ∧ stored = .feature spec ∧
        catalogue.features.get name = some spec := by
  rw [scan, Kv.mem_scan room.features]
  constructor
  · rintro ⟨read, inside⟩
    obtain ⟨key, rfl⟩ := stores.keys bytes (by rw [read]; rfl)
    obtain ⟨name, rfl⟩ := (inScan_features key).mp inside
    rw [stores.values] at read
    obtain ⟨spec, found, rfl⟩ := Option.map_eq_some_iff.mp read
    exact ⟨name, spec, rfl, rfl, found⟩
  · rintro ⟨name, spec, rfl, rfl, found⟩
    have read := stores.values (.feature name)
    simp only [Catalogue.value, found, Option.map_some] at read
    exact ⟨read, (inScan_features (.feature name)).mpr ⟨name, rfl⟩⟩

theorem featureKey_le {name other : String} (less : featureKey batchId name < featureKey batchId other) :
    utf8 name ≤ utf8 other := by
  rw [featureKey, featureKey, utf8_append _ name, utf8_append _ other, append_lt_append_iff] at less
  exact less.le

/-- The scan succeeds, and shows of each label the greatest name that ends in it. -/
theorem scanFeatures_shown (stores : Stores batchId store (catalogue.value hashTask))
    (room : Room batchId store) :
    ∃ features, scanFeatures batchId store = .ok features ∧
      ∀ label spec, features.get label = some spec ↔ ∃ name, Shown catalogue label name spec := by
  have ascending : (scan store (featurePrefix batchId) 1000).Pairwise fun first second =>
      first.1 < second.1 := (store.sorted.filter _).sublist (List.take_sublist _ _)
  have listed := mem_scan_features stores room
  obtain ⟨pairs, same, collected⟩ := collectStored_ok .empty (scan store (featurePrefix batchId) 1000)
    fun entry member => by
      obtain ⟨_, spec, _, described, _⟩ := (listed entry.1 entry.2).mp member
      exact ⟨spec, described⟩
  have inPairs : ∀ bytes spec, (bytes, spec) ∈ pairs ↔
      ∃ name, bytes = featureKey batchId name ∧ catalogue.features.get name = some spec := by
    intro bytes spec
    have entry := listed bytes (.feature spec)
    rw [same, List.mem_map] at entry
    constructor
    · intro member
      obtain ⟨name, _, key, described, found⟩ := entry.mp ⟨_, member, rfl⟩
      cases described
      exact ⟨name, key, found⟩
    · rintro ⟨name, key, found⟩
      obtain ⟨_, member, written⟩ := entry.mpr ⟨name, spec, key, rfl, found⟩
      cases written
      exact member
  have descending : pairs.reverse.Pairwise fun first second => second.1 < first.1 := by
    rw [same, List.pairwise_map] at ascending
    exact List.pairwise_reverse.mpr ascending
  have shown : ∀ label bytes spec,
      pairs.reverse.find? (fun pair => lastSegment pair.1 = label) = some (bytes, spec) →
        ∃ name, Shown catalogue label name spec := by
    intro label bytes spec found
    obtain ⟨segment, greater, lesser, parts, skipped⟩ := List.find?_eq_some_iff_append.mp found
    have member : (bytes, spec) ∈ pairs := by
      rw [← List.mem_reverse, parts]
      exact List.mem_append_right _ List.mem_cons_self
    obtain ⟨name, rfl, stored⟩ := (inPairs bytes spec).mp member
    refine ⟨name, stored, ?_, fun other otherSpec otherStored ends => ?_⟩
    · rw [← lastSegment_featureKey batchId]
      exact of_decide_eq_true segment
    · have otherMember := List.mem_reverse.mpr ((inPairs _ otherSpec).mpr ⟨other, rfl, otherStored⟩)
      rw [← lastSegment_featureKey batchId] at ends
      rw [parts] at otherMember descending
      rcases List.mem_append.mp otherMember with above | below
      · exact absurd ends (by simpa using skipped _ above)
      · rcases List.mem_cons.mp below with equal | below
        · have keys : featureKey batchId other = featureKey batchId name := congrArg Prod.fst equal
          have names : MetadataKey.feature other = .feature name := MetadataKey.bytes_inj.mp keys
          cases names
          exact le_rfl
        · have less := (List.pairwise_cons.mp (List.pairwise_append.mp descending).2.1).1 _ below
          exact featureKey_le less
  have read : ∀ label, (Kv.empty.putAll (pairs.map fun pair => (lastSegment pair.1, pair.2))).get label =
      (pairs.reverse.find? fun pair => lastSegment pair.1 = label).map Prod.snd := by
    intro label
    rw [Kv.get_putAll, Kv.get_empty, Option.or_none, ← List.map_reverse, List.find?_map, Option.map_map]
    refine congrArg (Option.map Prod.snd) (congrArg (List.find? · pairs.reverse) ?_)
    funext pair
    exact decide_eq_decide.mpr Iff.rfl
  refine ⟨_, collected, fun label spec => ?_⟩
  rw [read]
  cases found : pairs.reverse.find? fun pair => lastSegment pair.1 = label with
  | none =>
    simp only [Option.map_none, reduceCtorEq, false_iff]
    rintro ⟨name, stored, segment, -⟩
    have member := List.mem_reverse.mpr ((inPairs _ spec).mpr ⟨name, rfl, stored⟩)
    have missed := List.find?_eq_none.mp found _ member
    rw [lastSegment_featureKey, decide_eq_true_eq] at missed
    exact missed segment
  | some pair =>
    obtain ⟨name, is⟩ := shown label pair.1 pair.2 found
    rw [Option.map_some, Option.some.injEq]
    constructor
    · rintro rfl
      exact ⟨name, is⟩
    · rintro ⟨other, also⟩
      exact is.unique also

/-! ### Files -/

/-- The files of a catalogue. The lengths are added up modulo the size of a `usize`, and the
index features hide registered ones of their names. -/
structure Assembled (catalogue : Catalogue Stats) (files : DatasetFiles Stats) : Prop where
  episodes : files.episodes = catalogue.episodes.entries.map fun entry =>
    { episodeIndex := entry.1
      length := entry.2.length
      tasks := entry.2.tasks.map catalogue.texts.idxOf }
  tasks : ∀ entry, entry ∈ files.tasks ↔ catalogue.texts[entry.taskIndex]? = some entry.task
  totalEpisodes : files.info.totalEpisodes = catalogue.episodes.entries.length
  totalFrames : files.info.totalFrames =
    (catalogue.episodes.entries.map fun entry => entry.2.length).sum % 2 ^ 64
  indices : ∀ label json, (label, json) ∈ indexFeatures → files.info.features.get label = some json
  features : ∀ label, label ∉ indexFeatures.map Prod.fst → ∀ json,
    files.info.features.get label = some json ↔
      ∃ name spec, Shown catalogue label name spec ∧ featureJson spec = json

theorem indexFeatures_nodup : (indexFeatures.map Prod.fst).Nodup := by decide

theorem infoJson_features {features : Kv Bytes FeatureSpec}
    (shown : ∀ label spec, features.get label = some spec ↔ ∃ name, Shown catalogue label name spec)
    (own : label ∉ indexFeatures.map Prod.fst) (json : FeatureJson) :
    ((features.map featureJson).putAll indexFeatures).get label = some json ↔
      ∃ name spec, Shown catalogue label name spec ∧ featureJson spec = json := by
  rw [Kv.get_putAll_of_notMem own, Kv.get_map, Option.map_eq_some_iff]
  constructor
  · rintro ⟨spec, read, same⟩
    obtain ⟨name, is⟩ := (shown label spec).mp read
    exact ⟨name, spec, is, same⟩
  · rintro ⟨name, spec, is, same⟩
    exact ⟨spec, (shown label spec).mpr ⟨name, is⟩, same⟩

/-- With an episode and no text unknown, the catalogue is written out. -/
theorem assembleAndWrite_assembled (stores : Stores batchId store (catalogue.value hashTask))
    (room : Room batchId store) (apart : Apart hashTask catalogue.texts)
    (some_ : catalogue.episodes.entries ≠ [])
    (known : ∀ entry ∈ catalogue.episodes.entries, ∀ text ∈ entry.2.tasks, text ∈ catalogue.texts)
    (datasetName : String) (robotType : Option String) (fps : Nat) :
    ∃ files, assembleAndWrite batchId store datasetName robotType fps = .ok files ∧
      Assembled catalogue files := by
  obtain ⟨features, scanned, shown⟩ := scanFeatures_shown stores room
  have scannedEpisodes := scanEpisodeMetadata_eq stores room
  have found : (scanEpisodeMetadata batchId store).isEmpty = false := by
    rw [scannedEpisodes, List.isEmpty_eq_false_iff]
    simpa using some_
  refine ⟨_, by simp only [assembleAndWrite, found, scanned, Bool.false_eq_true, if_false]; rfl, ?_⟩
  refine
    { episodes := ?_
      tasks := fun entry => mem_scanTasks stores room apart
      totalEpisodes := by simp only [infoJson, scannedEpisodes, List.length_map]
      totalFrames := by simp only [infoJson, scannedEpisodes, List.map_map]; rfl
      indices := fun label json => Kv.get_putAll_of_nodup _ indexFeatures_nodup
      features := fun label own json => infoJson_features shown own json }
  simp only [episodesJsonl, scannedEpisodes, List.map_map]
  refine List.map_congr_left fun entry member => ?_
  have index := catalogue.indexed entry.1 entry.2 ((Kv.mem_entries _).mp member)
  have resolved : entry.2.tasks.filterMap (taskMap (scanTasks batchId store)).get =
      entry.2.tasks.map catalogue.texts.idxOf := by
    rw [← List.filterMap_eq_map]
    exact List.filterMap_congr fun text listed =>
      taskMap_get stores room apart (known entry member text listed)
  simp only [Function.comp, index, resolved]

end Roboflow.Metadata.Assembly
