import Roboflow.Library.Kv
import Roboflow.Library.StableSort
import Roboflow.Metadata.FeatureRegistry

/-! Validation of episode metadata, `metadata/validation.rs`. The gap check runs only when
there are not as many episodes as the largest index asks for, so that repeated indices can
hide missing ones. Hash maps are ordered stores here: nothing said about the result depends
on the order in which they are visited. -/
namespace Roboflow.Metadata
open Library

/-- `PartialEpisodeMetadata` as the validator reads it; of the statistics it reads the
features that have some. -/
structure EpisodeMetadata where
  episodeIndex : Nat
  length : Nat
  tasks : List String
  featureShapes : Kv String FeatureShape
  videoPaths : Kv String String
  stats : List String
  indexFits : episodeIndex < 2 ^ 64 := by decide

inductive ValidationError where
  | missingEpisode (episodeIndex : Nat)
  | featureSpecMismatch (featureName : String) (expected found : FeatureSpec)

inductive ValidationWarning where
  | emptyEpisode (episodeIndex : Nat)
  | sparseFeature (featureName : String) (presentCount totalCount : Nat)
  | missingStats (episodeIndex : Nat) (featureName : String)

structure ValidationSummary where
  totalEpisodes : Nat
  totalFrames : Nat
  featureCount : Nat
  taskCount : Nat
  videoCount : Nat

structure ValidationResult where
  valid : Bool
  errors : List ValidationError
  warnings : List ValidationWarning
  summary : ValidationSummary

namespace ValidationResult

def new : ValidationResult := ⟨true, [], [], ⟨0, 0, 0, 0, 0⟩⟩

def addError (result : ValidationResult) (error : ValidationError) : ValidationResult :=
  { result with valid := false, errors := result.errors ++ [error] }

def addWarning (result : ValidationResult) (warning : ValidationWarning) : ValidationResult :=
  { result with warnings := result.warnings ++ [warning] }

end ValidationResult

namespace MetadataValidator

/-- The gap check of sorted episodes. -/
def checkGaps (sorted : List EpisodeMetadata) (result : ValidationResult) : ValidationResult :=
  let maxIndex := (sorted.getLast?.map (·.episodeIndex)).getD 0
  let expectedCount := (maxIndex + 1) % 2 ^ 64
  if sorted.length ≠ expectedCount then
    (List.range (maxIndex + 1)).foldl
      (fun result i =>
        if i ∈ sorted.map (·.episodeIndex) then result else result.addError (.missingEpisode i))
      result
  else result

/-- The union of the features so far, and the result. -/
abbrev Features := Kv String FeatureSpec × ValidationResult

/-- One feature of one episode. -/
def checkFeature (seen : Features) (entry : String × FeatureShape) : Features :=
  let spec := entry.2.toSpec
  match seen.1.get entry.1 with
  | some existing =>
    if existing.isCompatible spec then seen
    else (seen.1, seen.2.addError (.featureSpecMismatch entry.1 existing spec))
  | none => (seen.1.put entry.1 spec, seen.2)

/-- The features of all episodes. -/
def entries (episodes : List EpisodeMetadata) : List (String × FeatureShape) :=
  episodes.flatMap fun episode => episode.featureShapes.entries

def checkFeatures (sorted : List EpisodeMetadata) (result : ValidationResult) : Features :=
  (entries sorted).foldl checkFeature (.empty, result)

/-- What one episode is warned of. -/
def warnings (sorted : List EpisodeMetadata) (allFeatures : Kv String FeatureSpec)
    (episode : EpisodeMetadata) : List ValidationWarning :=
  let present := fun name => sorted.countP fun other => (other.featureShapes.get name).isSome
  let names := fun {ν : Type} (map : Kv String ν) => map.entries.map Prod.fst
  (if episode.length = 0 then [.emptyEpisode episode.episodeIndex] else []) ++
    ((names allFeatures).filter fun name => (episode.featureShapes.get name).isNone).map
      (fun name => .sparseFeature name (present name) sorted.length) ++
    ((names episode.featureShapes).filter fun name => name ∉ episode.stats).map
      (fun name => .missingStats episode.episodeIndex name)

def summary (sorted : List EpisodeMetadata) (allFeatures : Kv String FeatureSpec) :
    ValidationSummary where
  totalEpisodes := sorted.length
  totalFrames := (sorted.map (·.length)).sum % 2 ^ 64
  featureCount := allFeatures.entries.length
  taskCount := (sorted.flatMap (·.tasks)).dedup.length
  videoCount := (sorted.map (·.videoPaths.entries.length)).sum % 2 ^ 64

def validateEpisodes (episodes : List EpisodeMetadata) : ValidationResult :=
  if episodes.isEmpty then ValidationResult.new.addError (.missingEpisode 0)
  else
    let sorted := sortByKey (·.episodeIndex) episodes
    let checked := checkFeatures sorted (checkGaps sorted .new)
    let warned := (sorted.flatMap (warnings sorted checked.1)).foldl ValidationResult.addWarning checked.2
    { warned with summary := summary sorted checked.1 }

end MetadataValidator

/-! ### What is to be reported -/

def indices (episodes : List EpisodeMetadata) : List Nat := episodes.map (·.episodeIndex)

def maxIndex (episodes : List EpisodeMetadata) : Nat := (indices episodes).foldr max 0

/-- An index up to the largest that no episode has. -/
def Gap (episodes : List EpisodeMetadata) (i : Nat) : Prop :=
  i ≤ maxIndex episodes ∧ i ∉ indices episodes

/-- Two of the episodes give the feature another dtype or shape. -/
def Disagree (episodes : List EpisodeMetadata) (name : String) : Prop :=
  ∃ one ∈ episodes, ∃ other ∈ episodes, ∃ shape otherShape,
    one.featureShapes.get name = some shape ∧ other.featureShapes.get name = some otherShape ∧
      (shape.dtype ≠ otherShape.dtype ∨ shape.shape ≠ otherShape.shape)

def ReportsMissing (result : ValidationResult) (i : Nat) : Prop :=
  .missingEpisode i ∈ result.errors

def ReportsMismatch (result : ValidationResult) (name : String) : Prop :=
  ∃ expected found, .featureSpecMismatch name expected found ∈ result.errors

/-- What the validator says of the episodes is what there is to say. -/
structure ValidatedExactly (episodes : List EpisodeMetadata) : Prop where
  missing : ∀ i, ReportsMissing (MetadataValidator.validateEpisodes episodes) i ↔ Gap episodes i
  mismatch : ∀ name, ReportsMismatch (MetadataValidator.validateEpisodes episodes) name ↔
    Disagree episodes name
  valid : (MetadataValidator.validateEpisodes episodes).valid = true ↔
    (∀ i, ¬ Gap episodes i) ∧ ∀ name, ¬ Disagree episodes name
  permutation : ∀ others, others.Perm episodes →
    (MetadataValidator.validateEpisodes others).valid =
        (MetadataValidator.validateEpisodes episodes).valid ∧
      ∀ i, ReportsMissing (MetadataValidator.validateEpisodes others) i ↔
        ReportsMissing (MetadataValidator.validateEpisodes episodes) i

/-! ### Errors -/

/-- A result is valid while it has no error. -/
def Settled (result : ValidationResult) : Prop := result.valid = true ↔ result.errors = []

theorem settled_addError (result : ValidationResult) (error : ValidationError) :
    Settled (result.addError error) := by
  simp [Settled, ValidationResult.addError]

theorem addWarnings_same (warnings : List ValidationWarning) (result : ValidationResult) :
    (warnings.foldl ValidationResult.addWarning result).valid = result.valid ∧
      (warnings.foldl ValidationResult.addWarning result).errors = result.errors := by
  induction warnings generalizing result with
  | nil => exact ⟨rfl, rfl⟩
  | cons warning rest ih => exact ih (result.addWarning warning)

/-- The gaps that the loop adds. -/
theorem addGaps (present : List Nat) (range : List Nat) (result : ValidationResult) :
    (range.foldl (fun result i => if i ∈ present then result else result.addError (.missingEpisode i))
      result).errors =
      result.errors ++ (range.filter fun i => i ∉ present).map .missingEpisode := by
  induction range generalizing result with
  | nil => simp
  | cons i rest ih =>
    rw [List.foldl_cons, ih]
    by_cases listed : i ∈ present <;> simp [listed, ValidationResult.addError]

theorem addGaps_settled (present : List Nat) (range : List Nat) {result : ValidationResult}
    (settled : Settled result) : Settled (range.foldl
      (fun result i => if i ∈ present then result else result.addError (.missingEpisode i)) result) := by
  induction range generalizing result with
  | nil => exact settled
  | cons i rest ih =>
    rw [List.foldl_cons]
    apply ih
    split
    · exact settled
    · exact settled_addError result _

/-! ### Features -/

theorem isCompatible_iff (shape other : FeatureShape) :
    shape.toSpec.isCompatible other.toSpec = true ↔
      shape.dtype = other.dtype ∧ shape.shape = other.shape := by
  simp [FeatureSpec.isCompatible, FeatureShape.toSpec]

/-- Two features of one name that are not compatible. -/
def Clash (entries : List (String × FeatureShape)) (name : String) : Prop :=
  ∃ one ∈ entries, ∃ other ∈ entries, one.1 = name ∧ other.1 = name ∧
    ¬ one.2.toSpec.isCompatible other.2.toSpec

/-- What the loop has seen after these features. -/
structure Seen (start : ValidationResult) (before : List (String × FeatureShape))
    (seen : MetadataValidator.Features) : Prop where
  absent : ∀ name, seen.1.get name = none → ∀ entry ∈ before, entry.1 ≠ name
  known : ∀ name spec, seen.1.get name = some spec →
    ∃ entry ∈ before, entry.1 = name ∧ entry.2.toSpec = spec
  mismatch : ∀ name, ReportsMismatch seen.2 name ↔ Clash before name
  missing : ∀ i, ReportsMissing seen.2 i ↔ ReportsMissing start i
  settled : Settled seen.2

theorem Clash.mono (clash : Clash before name) : Clash (before ++ more) name := by
  obtain ⟨one, oneIn, other, otherIn, rest⟩ := clash
  exact ⟨one, List.mem_append_left _ oneIn, other, List.mem_append_left _ otherIn, rest⟩

/-- A new feature that agrees with the earlier ones of its name makes no clash. -/
theorem clash_append {before : List (String × FeatureShape)} (entry : String × FeatureShape)
    (agrees : entry.1 = name → ∀ earlier ∈ before, earlier.1 = name →
      earlier.2.toSpec.isCompatible entry.2.toSpec = true) :
    Clash (before ++ [entry]) name ↔ Clash before name := by
  constructor
  · rintro ⟨one, oneIn, other, otherIn, named, otherNamed, apart⟩
    rcases List.mem_append.mp oneIn with oneOld | oneNew <;>
      rcases List.mem_append.mp otherIn with otherOld | otherNew
    · exact ⟨one, oneOld, other, otherOld, named, otherNamed, apart⟩
    · obtain rfl := List.mem_singleton.mp otherNew
      exact absurd (agrees otherNamed one oneOld named) apart
    · obtain rfl := List.mem_singleton.mp oneNew
      have same := (isCompatible_iff _ _).mp (agrees named other otherOld otherNamed)
      exact absurd ((isCompatible_iff _ _).mpr ⟨same.1.symm, same.2.symm⟩) apart
    · obtain rfl := List.mem_singleton.mp oneNew
      obtain rfl := List.mem_singleton.mp otherNew
      exact absurd ((isCompatible_iff _ _).mpr ⟨rfl, rfl⟩) apart
  · exact Clash.mono

/-- Nor does one that agrees with the first of its name, unless there is a clash already. -/
theorem clash_append_of_first {before : List (String × FeatureShape)}
    {entry first : String × FeatureShape} (listed : first ∈ before) (named : first.1 = entry.1)
    (agrees : first.2.toSpec.isCompatible entry.2.toSpec = true) (name : String) :
    Clash (before ++ [entry]) name ↔ Clash before name := by
  by_cases already : Clash before name
  · exact ⟨fun _ => already, Clash.mono⟩
  apply clash_append
  rintro rfl earlier member same
  by_contra apart
  apply already
  refine ⟨earlier, member, first, listed, same, named, fun compatible => apart ?_⟩
  have one := (isCompatible_iff _ _).mp compatible
  have two := (isCompatible_iff _ _).mp agrees
  exact (isCompatible_iff _ _).mpr ⟨one.1.trans two.1, one.2.trans two.2⟩

theorem reportsMismatch_addError (result : ValidationResult) (named : String)
    (expected found : FeatureSpec) (name : String) :
    ReportsMismatch (result.addError (.featureSpecMismatch named expected found)) name ↔
      ReportsMismatch result name ∨ name = named := by
  simp only [ReportsMismatch, ValidationResult.addError, List.mem_append, List.mem_singleton,
    ValidationError.featureSpecMismatch.injEq]
  constructor
  · rintro ⟨_, _, earlier | ⟨rfl, -, -⟩⟩
    · exact .inl ⟨_, _, earlier⟩
    · exact .inr rfl
  · rintro (⟨_, _, earlier⟩ | rfl)
    · exact ⟨_, _, .inl earlier⟩
    · exact ⟨_, _, .inr ⟨rfl, rfl, rfl⟩⟩

theorem reportsMissing_addError (result : ValidationResult) (named : String)
    (expected found : FeatureSpec) (i : Nat) :
    ReportsMissing (result.addError (.featureSpecMismatch named expected found)) i ↔
      ReportsMissing result i := by
  simp [ReportsMissing, ValidationResult.addError]

theorem Seen.step (held : Seen start before seen) (entry : String × FeatureShape) :
    Seen start (before ++ [entry]) (MetadataValidator.checkFeature seen entry) := by
  obtain ⟨absent, known, mismatch, missing, settled⟩ := held
  have knownLater : ∀ name spec, seen.1.get name = some spec →
      ∃ earlier ∈ before ++ [entry], earlier.1 = name ∧ earlier.2.toSpec = spec := by
    intro name spec found
    obtain ⟨earlier, member, same⟩ := known name spec found
    exact ⟨earlier, List.mem_append_left _ member, same⟩
  unfold MetadataValidator.checkFeature
  simp only
  split
  · rename_i existing found
    obtain ⟨first, listed, named, rfl⟩ := known entry.1 existing found
    have absentLater : ∀ name, seen.1.get name = none → ∀ other ∈ before ++ [entry], other.1 ≠ name := by
      intro name none other member
      rcases List.mem_append.mp member with earlier | new
      · exact absent name none other earlier
      · obtain rfl := List.mem_singleton.mp new
        rintro rfl
        rw [found] at none
        cases none
    split
    · rename_i agrees
      refine ⟨absentLater, knownLater, fun name => ?_, missing, settled⟩
      rw [mismatch, clash_append_of_first listed named agrees]
    · rename_i apart
      refine ⟨absentLater, knownLater, fun name => ?_, fun i => ?_, settled_addError _ _⟩
      · rw [reportsMismatch_addError, mismatch]
        constructor
        · rintro (clash | rfl)
          · exact clash.mono
          · exact ⟨first, List.mem_append_left _ listed, entry, List.mem_append_right _ (by simp),
              named, rfl, apart⟩
        · intro clash
          by_cases own : name = entry.1
          · exact .inr own
          · exact .inl ((clash_append entry fun same => absurd same.symm own).mp clash)
      · rw [reportsMissing_addError, missing]
  · rename_i none
    have fresh := absent entry.1 none
    refine ⟨?_, ?_, fun name => ?_, missing, settled⟩
    · intro name unknown other member
      rw [Kv.get_put] at unknown
      split at unknown
      · cases unknown
      · rename_i different
        rcases List.mem_append.mp member with earlier | new
        · exact absent name unknown other earlier
        · obtain rfl := List.mem_singleton.mp new
          exact fun same => different same.symm
    · intro name spec found
      rw [Kv.get_put] at found
      split at found
      · rename_i same
        obtain rfl := Option.some.inj found
        exact ⟨entry, List.mem_append_right _ (by simp), same.symm, rfl⟩
      · exact knownLater name spec found
    · rw [mismatch, clash_append]
      rintro rfl earlier member same
      exact absurd same (fresh earlier member)

theorem Seen.foldl (held : Seen start before seen) (more : List (String × FeatureShape)) :
    Seen start (before ++ more) (more.foldl MetadataValidator.checkFeature seen) := by
  induction more generalizing before seen with
  | nil =>
    rw [List.append_nil]
    exact held
  | cons entry rest ih =>
    rw [List.append_cons]
    exact ih (held.step entry)

theorem mem_featureEntries {episodes : List EpisodeMetadata} {entry : String × FeatureShape} :
    entry ∈ MetadataValidator.entries episodes ↔
      ∃ episode ∈ episodes, episode.featureShapes.get entry.1 = some entry.2 := by
  simp only [MetadataValidator.entries, List.mem_flatMap, ← Kv.mem_entries, Prod.mk.eta]

theorem clash_entries (episodes : List EpisodeMetadata) (name : String) :
    Clash (MetadataValidator.entries episodes) name ↔ Disagree episodes name := by
  have apart : ∀ shape other : FeatureShape, ¬ shape.toSpec.isCompatible other.toSpec = true ↔
      (shape.dtype ≠ other.dtype ∨ shape.shape ≠ other.shape) := by
    intro shape other
    rw [isCompatible_iff, not_and_or]
  constructor
  · rintro ⟨⟨_, shape⟩, oneIn, ⟨_, otherShape⟩, otherIn, rfl, rfl, clash⟩
    obtain ⟨one, listed, given⟩ := mem_featureEntries.mp oneIn
    obtain ⟨other, otherListed, otherGiven⟩ := mem_featureEntries.mp otherIn
    exact ⟨one, listed, other, otherListed, shape, otherShape, given, otherGiven, (apart _ _).mp clash⟩
  · rintro ⟨one, listed, other, otherListed, shape, otherShape, given, otherGiven, different⟩
    exact ⟨(name, shape), mem_featureEntries.mpr ⟨one, listed, given⟩, (name, otherShape),
      mem_featureEntries.mpr ⟨other, otherListed, otherGiven⟩, rfl, rfl, (apart _ _).mpr different⟩

/-! ### Gaps -/

theorem le_maxIndex {episodes : List EpisodeMetadata} (listed : i ∈ indices episodes) :
    i ≤ maxIndex episodes := by
  unfold maxIndex
  generalize indices episodes = all at listed
  induction all with
  | nil => cases listed
  | cons first rest ih =>
    rcases List.mem_cons.mp listed with rfl | later
    · exact le_max_left _ _
    · exact (ih later).trans (le_max_right _ _)

theorem maxIndex_mem {episodes : List EpisodeMetadata} (some_ : episodes ≠ []) :
    maxIndex episodes ∈ indices episodes := by
  have nonempty : indices episodes ≠ [] := fun empty => some_ (List.map_eq_nil_iff.mp empty)
  unfold maxIndex
  generalize indices episodes = all at nonempty
  induction all with
  | nil => exact absurd rfl nonempty
  | cons first rest ih =>
    rw [List.foldr_cons]
    rcases rest.eq_nil_or_concat with rfl | ⟨_, _, rfl⟩
    · simp
    · rcases max_choice first (List.foldr max 0 (List.concat _ _)) with same | same
      · rw [same]
        exact List.mem_cons_self
      · rw [same]
        exact List.mem_cons_of_mem _ (ih (by simp))

theorem perm_indices {episodes others : List EpisodeMetadata} (perm : others.Perm episodes) :
    (indices others).Perm (indices episodes) := perm.map _

theorem maxIndex_perm {episodes others : List EpisodeMetadata} (perm : others.Perm episodes) :
    maxIndex others = maxIndex episodes := (perm_indices perm).foldr_eq 0

theorem gap_perm {episodes others : List EpisodeMetadata} (perm : others.Perm episodes) (i : Nat) :
    Gap others i ↔ Gap episodes i := by
  unfold Gap
  rw [maxIndex_perm perm, (perm_indices perm).mem_iff]

theorem disagree_perm {episodes others : List EpisodeMetadata} (perm : others.Perm episodes)
    (name : String) : Disagree others name ↔ Disagree episodes name := by
  simp only [Disagree, perm.mem_iff]

/-- The last of sorted episodes has the largest index. -/
theorem lastIndex_sorted {sorted : List EpisodeMetadata}
    (ascending : sorted.Pairwise fun first second => first.episodeIndex ≤ second.episodeIndex)
    (some_ : sorted ≠ []) :
    (sorted.getLast?.map (·.episodeIndex)).getD 0 = maxIndex sorted := by
  rw [List.getLast?_eq_some_getLast some_]
  apply le_antisymm
  · exact le_maxIndex (List.mem_map_of_mem (List.getLast_mem some_))
  · obtain ⟨greatest, listed, same⟩ := List.mem_map.mp (maxIndex_mem some_)
    rw [← same]
    rcases List.eq_nil_or_concat sorted with rfl | ⟨earlier, last, rfl⟩
    · exact absurd rfl some_
    · rw [List.concat_eq_append] at *
      rcases List.mem_append.mp listed with before | own
      · simpa using (List.pairwise_append.mp ascending).2.2 greatest before last (by simp)
      · obtain rfl := List.mem_singleton.mp own
        simp

/-- The gap check: whether it runs, and what it then adds. -/
theorem checkGaps_spec {sorted : List EpisodeMetadata}
    (ascending : sorted.Pairwise fun first second => first.episodeIndex ≤ second.episodeIndex)
    (some_ : sorted ≠ []) :
    Settled (MetadataValidator.checkGaps sorted .new) ∧
      (MetadataValidator.checkGaps sorted .new).errors =
        if sorted.length ≠ (maxIndex sorted + 1) % 2 ^ 64 then
          ((List.range (maxIndex sorted + 1)).filter fun i => i ∉ indices sorted).map .missingEpisode
        else [] := by
  have settled : Settled .new := by simp [Settled, ValidationResult.new]
  unfold MetadataValidator.checkGaps
  simp only [lastIndex_sorted ascending some_]
  split
  · exact ⟨addGaps_settled _ _ settled, (addGaps _ _ _).trans (List.nil_append _)⟩
  · exact ⟨settled, rfl⟩

/-! ### The verdict -/

section
variable {episodes : List EpisodeMetadata}

/-- What is reported, and whether the verdict is valid. -/
theorem validateEpisodes_spec (some_ : episodes ≠ []) :
    (∀ i, ReportsMissing (MetadataValidator.validateEpisodes episodes) i ↔
      episodes.length ≠ (maxIndex episodes + 1) % 2 ^ 64 ∧ Gap episodes i) ∧
    (∀ name, ReportsMismatch (MetadataValidator.validateEpisodes episodes) name ↔
      Disagree episodes name) ∧
    Settled (MetadataValidator.validateEpisodes episodes) := by
  have perm := perm_sortByKey (·.episodeIndex) episodes
  have ascending := pairwise_sortByKey (·.episodeIndex) episodes
  have sortedSome : sortByKey (·.episodeIndex) episodes ≠ [] := by
    intro none
    exact some_ (List.nil_perm.mp (none ▸ perm))
  have notEmpty : episodes.isEmpty = false := by simpa using some_
  have result : (MetadataValidator.validateEpisodes episodes).valid =
        (MetadataValidator.checkFeatures (sortByKey (·.episodeIndex) episodes)
          (MetadataValidator.checkGaps (sortByKey (·.episodeIndex) episodes) .new)).2.valid ∧
      (MetadataValidator.validateEpisodes episodes).errors =
        (MetadataValidator.checkFeatures (sortByKey (·.episodeIndex) episodes)
          (MetadataValidator.checkGaps (sortByKey (·.episodeIndex) episodes) .new)).2.errors := by
    unfold MetadataValidator.validateEpisodes
    rw [if_neg (by simp [notEmpty])]
    exact addWarnings_same _ _
  generalize sortByKey (·.episodeIndex) episodes = sorted at *
  obtain ⟨settled, gaps⟩ := checkGaps_spec ascending sortedSome
  have start : Seen (MetadataValidator.checkGaps sorted .new) []
      (.empty, MetadataValidator.checkGaps sorted .new) := by
    refine ⟨by simp, by simp, fun name => ?_, fun i => Iff.rfl, settled⟩
    have noMismatch : ¬ ReportsMismatch (MetadataValidator.checkGaps sorted .new) name := by
      rintro ⟨expected, found, listed⟩
      rw [gaps] at listed
      split at listed
      · simp at listed
      · cases listed
    have noClash : ¬ Clash [] name := by
      rintro ⟨_, member, _⟩
      cases member
    exact iff_of_false noMismatch noClash
  have seen := start.foldl (MetadataValidator.entries sorted)
  have missing : ∀ i, ReportsMissing (MetadataValidator.validateEpisodes episodes) i ↔
      ReportsMissing (MetadataValidator.checkGaps sorted .new) i := by
    intro i
    rw [← seen.missing i]
    unfold ReportsMissing
    rw [result.2]
    rfl
  refine ⟨fun i => ?_, fun name => ?_, ?_⟩
  · rw [missing, ReportsMissing, gaps, perm.length_eq, maxIndex_perm perm]
    split
    · rename_i different
      rw [and_iff_right different]
      simp [Gap, (perm_indices perm).mem_iff]
    · rename_i same
      apply iff_of_false
      · exact List.not_mem_nil
      · exact fun reported => same reported.1
  · rw [← disagree_perm perm, ← clash_entries, ← List.nil_append (MetadataValidator.entries sorted),
      ← seen.mismatch]
    unfold ReportsMismatch
    rw [result.2]
    rfl
  · have same := seen.settled
    unfold Settled at same ⊢
    rw [result.1, result.2]
    exact same

theorem valid_iff (some_ : episodes ≠ []) :
    (MetadataValidator.validateEpisodes episodes).valid = true ↔
      (∀ i, ¬ (episodes.length ≠ (maxIndex episodes + 1) % 2 ^ 64 ∧ Gap episodes i)) ∧
        ∀ name, ¬ Disagree episodes name := by
  obtain ⟨missing, mismatch, settled⟩ := validateEpisodes_spec some_
  rw [show _ ↔ _ from settled]
  simp only [← missing, ← mismatch]
  constructor
  · intro none
    constructor
    · intro i reported
      rw [ReportsMissing, none] at reported
      cases reported
    · rintro name ⟨expected, found, reported⟩
      rw [none] at reported
      cases reported
  · rintro ⟨noMissing, noMismatch⟩
    apply List.eq_nil_iff_forall_not_mem.mpr
    intro error listed
    cases error with
    | missingEpisode i => exact noMissing i listed
    | featureSpecMismatch name expected found => exact noMismatch name ⟨expected, found, listed⟩

/-! ### When the gap check may be left out -/

/-- As many indices as the largest asks for: none is missing exactly if none repeats. -/
theorem no_gap_iff_nodup (long : episodes.length = maxIndex episodes + 1) :
    (∀ i, ¬ Gap episodes i) ↔ (indices episodes).Nodup := by
  have inside : (indices episodes).toFinset ⊆ Finset.range (maxIndex episodes + 1) := by
    intro i listed
    exact Finset.mem_range.mpr (Nat.lt_succ_iff.mpr (le_maxIndex (List.mem_toFinset.mp listed)))
  have size : (indices episodes).length = (Finset.range (maxIndex episodes + 1)).card := by
    rw [Finset.card_range, ← long]
    exact List.length_map _
  constructor
  · intro none
    have full : Finset.range (maxIndex episodes + 1) ⊆ (indices episodes).toFinset := by
      intro i below
      by_contra absent
      exact none i ⟨Nat.lt_succ_iff.mp (Finset.mem_range.mp below),
        fun listed => absent (List.mem_toFinset.mpr listed)⟩
    have same := Finset.Subset.antisymm inside full
    have dedup : (indices episodes).dedup.length = (indices episodes).length := by
      rw [← List.card_toFinset, same, size]
    exact List.dedup_eq_self.mp ((List.dedup_sublist _).eq_of_length dedup)
  · rintro distinct i ⟨below, absent⟩
    have same : (indices episodes).toFinset = Finset.range (maxIndex episodes + 1) := by
      apply Finset.eq_of_subset_of_card_le inside
      rw [List.toFinset_card_of_nodup distinct, size]
    apply absent
    rw [← List.mem_toFinset, same]
    exact Finset.mem_range.mpr (Nat.lt_succ_iff.mpr below)

theorem maxIndex_fits (some_ : episodes ≠ []) : maxIndex episodes < 2 ^ 64 := by
  obtain ⟨episode, _, same⟩ := List.mem_map.mp (maxIndex_mem some_)
  rw [← same]
  exact episode.indexFits

/-- The gap check is left out only when the count is the largest index and one. -/
theorem length_of_unchecked (some_ : episodes ≠ [])
    (unchecked : episodes.length = (maxIndex episodes + 1) % 2 ^ 64) :
    episodes.length = maxIndex episodes + 1 := by
  have fits := maxIndex_fits some_
  have positive := List.length_pos_iff.mpr some_
  rw [unchecked]
  apply Nat.mod_eq_of_lt
  by_contra above
  have top : maxIndex episodes + 1 = 2 ^ 64 := by omega
  rw [top, Nat.mod_self] at unchecked
  omega

end

/-- The verdict is exact unless repeated indices make up for missing ones. -/
theorem validation_exact_iff (episodes : List EpisodeMetadata) (some_ : episodes ≠ []) :
    ValidatedExactly episodes ↔
      (episodes.length = (maxIndex episodes + 1) % 2 ^ 64 → (indices episodes).Nodup) := by
  obtain ⟨missing, mismatch, -⟩ := validateEpisodes_spec some_
  constructor
  · intro exact_ unchecked
    apply (no_gap_iff_nodup (length_of_unchecked some_ unchecked)).mp
    intro i gap
    exact ((missing i).mp ((exact_.missing i).mpr gap)).1 unchecked
  · intro distinct
    have checked : ∀ i, Gap episodes i → episodes.length ≠ (maxIndex episodes + 1) % 2 ^ 64 := by
      intro i gap unchecked
      have long := length_of_unchecked some_ unchecked
      exact (no_gap_iff_nodup long).mpr (distinct unchecked) i gap
    have gaps : ∀ i, episodes.length ≠ (maxIndex episodes + 1) % 2 ^ 64 ∧ Gap episodes i ↔
        Gap episodes i := fun i => ⟨fun both => both.2, fun gap => ⟨checked i gap, gap⟩⟩
    constructor
    · intro i
      rw [missing, gaps]
    · exact mismatch
    · simp only [valid_iff some_, gaps]
    · intro others perm
      have othersSome : others ≠ [] := by
        rintro rfl
        exact some_ (List.nil_perm.mp perm)
      obtain ⟨otherMissing, -, -⟩ := validateEpisodes_spec othersSome
      constructor
      · rw [Bool.eq_iff_iff, valid_iff othersSome, valid_iff some_]
        simp only [perm.length_eq, maxIndex_perm perm, gap_perm perm, disagree_perm perm]
      · intro i
        rw [otherMissing, missing, perm.length_eq, maxIndex_perm perm, gap_perm perm]

/-- Episodes of one frame and no features. -/
def bareEpisode (index : Nat) (fits : index < 2 ^ 64) : EpisodeMetadata where
  episodeIndex := index
  length := 1
  tasks := []
  featureShapes := .empty
  videoPaths := .empty
  stats := []
  indexFits := fits

theorem validation_exact_two :
    ValidatedExactly [bareEpisode 2 (by decide), bareEpisode 0 (by decide)] :=
  (validation_exact_iff [bareEpisode 2 (by decide), bareEpisode 0 (by decide)] (by simp)).mpr
    fun _ => by decide

/-- Episodes 0, 2 and 2: episode 1 is missing and nothing is reported. -/
theorem gap_hidden_by_repeat :
    ¬ ∀ episodes : List EpisodeMetadata, episodes ≠ [] → ValidatedExactly episodes := by
  intro claimed
  have exact_ := claimed [bareEpisode 0 (by decide), bareEpisode 2 (by decide), bareEpisode 2 (by decide)]
    (by simp)
  have reported := (exact_.missing 1).mpr ⟨by decide, by decide⟩
  obtain ⟨missing, -, -⟩ := validateEpisodes_spec
    (show [bareEpisode 0 (by decide), bareEpisode 2 (by decide), bareEpisode 2 (by decide)] ≠ [] by simp)
  exact ((missing 1).mp reported).1 (by decide)

end Roboflow.Metadata
