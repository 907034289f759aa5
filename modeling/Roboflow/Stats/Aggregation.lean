import Roboflow.Library.Pooling

/-! Aggregation of the statistics of a feature, `stats/types.rs`, over exact rationals and
with the square of a standard deviation in its place. The four vectors of a `FeatureStats`
have one length, so that they are one list of its dimensions here. -/
namespace Roboflow.Stats
open Library

/-- One dimension of a `FeatureStats`. -/
structure Moments where
  min : ℚ
  max : ℚ
  mean : ℚ
  variance : ℚ
  deriving DecidableEq

abbrev FeatureStats := List Moments

/-- One dimension of what `aggregate_feature_stats` keeps from episode to episode. -/
structure Running where
  min : ℚ
  max : ℚ
  mean : ℚ
  m2 : ℚ

/-- A division, none by zero. -/
def checkedDiv (a b : ℚ) : Option ℚ := if b = 0 then none else some (a / b)

/-- The squared distances that an episode's standard deviation stands for. -/
def scatter (count : Nat) (dimension : Moments) : ℚ :=
  if 1 < count then dimension.variance * ((count - 1 : Nat) : ℚ) else 0

def Running.first (count : Nat) (dimension : Moments) : Running where
  min := dimension.min
  max := dimension.max
  mean := dimension.mean
  m2 := scatter count dimension

/-- One dimension of one more episode. -/
def mergeDimension (countA countB : Nat) (pair : Running × Moments) : Option Running :=
  let delta := pair.2.mean - pair.1.mean
  let totalCount : ℚ := (countA + countB : Nat)
  (checkedDiv (delta * countB) totalCount).bind fun shift =>
    (checkedDiv (delta * delta * countA * countB) totalCount).map fun spread =>
      { min := Min.min pair.1.min pair.2.min
        max := Max.max pair.1.max pair.2.max
        mean := pair.1.mean + shift
        m2 := pair.1.m2 + (scatter countB pair.2 + spread) }

/-- One more episode: the total count, and every dimension. -/
def mergeEpisode (state : Nat × List Running) (episode : Nat × FeatureStats) :
    Option (Nat × List Running) :=
  ((state.2.zip episode.2).mapM (mergeDimension state.1 episode.1)).map fun dimensions =>
    (state.1 + episode.1, dimensions)

def Running.finish (totalCount : Nat) (running : Running) : Moments where
  min := running.min
  max := running.max
  mean := running.mean
  variance := if 1 < totalCount then running.m2 / ((totalCount - 1 : Nat) : ℚ) else 0

/-- `aggregate_feature_stats`, which is `none` where it divides by zero. -/
def aggregateFeatureStats : List (Nat × FeatureStats) → Option (Option FeatureStats)
  | [] => some none
  | first :: rest =>
    let dim := first.2.length
    if dim = 0 then some none
    else if (first :: rest).any fun episode => episode.2.length ≠ dim then some none
    else
      (rest.foldlM mergeEpisode (first.1, first.2.map (Running.first first.1))).map fun final =>
        some (final.2.map (Running.finish final.1))

/-! ### The pooled statistics -/

/-- One dimension of all episodes, with their counts. -/
def column (i : Nat) (episodes : List (Nat × FeatureStats)) : List (Nat × Moments) :=
  episodes.filterMap fun episode => episode.2[i]?.map (Prod.mk episode.1)

def totalCount (episodes : List (Nat × α)) : Nat := (episodes.map Prod.fst).sum

/-- The statistics of all observations of a dimension. -/
structure Pooled (episodes : List (Nat × Moments)) (result : Moments) : Prop where
  min : result.min ∈ episodes.map (·.2.min) ∧ ∀ episode ∈ episodes, result.min ≤ episode.2.min
  max : result.max ∈ episodes.map (·.2.max) ∧ ∀ episode ∈ episodes, episode.2.max ≤ result.max
  mean : (totalCount episodes : ℚ) * result.mean = (episodes.map fun e => (e.1 : ℚ) * e.2.mean).sum
  variance : result.variance = if totalCount episodes ≤ 1 then 0
    else (episodes.map fun e => ((e.1 - 1 : Nat) : ℚ) * e.2.variance +
      (e.1 : ℚ) * (e.2.mean - result.mean) ^ 2).sum / ((totalCount episodes - 1 : Nat) : ℚ)

/-- The pooled statistics, for every order of the episodes and without a division by zero. -/
structure AggregatesRight (dim : Nat) (episodes : List (Nat × FeatureStats)) : Prop where
  nothing : episodes = [] ∨ dim = 0 → aggregateFeatureStats episodes = some none
  pooled : episodes ≠ [] → 0 < dim → ∃ result, aggregateFeatureStats episodes = some (some result) ∧
    result.length = dim ∧ ∀ i dimension, result[i]? = some dimension → Pooled (column i episodes) dimension
  permutation : ∀ others, others.Perm episodes →
    aggregateFeatureStats others = aggregateFeatureStats episodes

/-! ### One dimension -/

/-- An episode's dimension as a sample. -/
def sample (episode : Nat × Moments) : Sample ℚ := ⟨episode.1, episode.2.mean, scatter episode.1 episode.2⟩

/-- What is kept of a dimension of some episodes. -/
structure Kept (episodes : List (Nat × Moments)) (running : Running) : Prop where
  min : running.min ∈ episodes.map (·.2.min) ∧ ∀ episode ∈ episodes, running.min ≤ episode.2.min
  max : running.max ∈ episodes.map (·.2.max) ∧ ∀ episode ∈ episodes, episode.2.max ≤ running.max
  pools : Pools (episodes.map sample) ⟨totalCount episodes, running.mean, running.m2⟩

theorem scatter_eq (count : Nat) (dimension : Moments) :
    scatter count dimension = ((count - 1 : Nat) : ℚ) * dimension.variance := by
  unfold scatter
  split
  · exact mul_comm _ _
  · rename_i few
    have none : count - 1 = 0 := by omega
    simp [none]

theorem kept_first (count : Nat) (dimension : Moments) :
    Kept [(count, dimension)] (.first count dimension) where
  min := by simp [Running.first]
  max := by simp [Running.first]
  pools := by
    have alone := pools_singleton (sample (count, dimension))
    simpa [sample, totalCount, Running.first] using alone

/-- One dimension of one more episode, where the counts are not all zero. -/
def merged (countA countB : Nat) (pair : Running × Moments) : Running where
  min := Min.min pair.1.min pair.2.min
  max := Max.max pair.1.max pair.2.max
  mean := pair.1.mean + (pair.2.mean - pair.1.mean) * countB / (countA + countB : Nat)
  m2 := pair.1.m2 + (scatter countB pair.2 +
    (pair.2.mean - pair.1.mean) * (pair.2.mean - pair.1.mean) * countA * countB / (countA + countB : Nat))

theorem mergeDimension_eq (some_ : 0 < countA + countB) (pair : Running × Moments) :
    mergeDimension countA countB pair = some (merged countA countB pair) := by
  have total : ((countA + countB : Nat) : ℚ) ≠ 0 := by exact_mod_cast some_.ne'
  simp only [mergeDimension, checkedDiv, if_neg total]
  rfl

theorem mergeDimension_zero (pair : Running × Moments) : mergeDimension 0 0 pair = none := by
  simp [mergeDimension, checkedDiv]

theorem totalCount_append (episodes more : List (Nat × α)) :
    totalCount (episodes ++ more) = totalCount episodes + totalCount more := by
  simp [totalCount]

theorem Kept.merged (kept : Kept episodes running) (count : Nat) (dimension : Moments)
    (some_ : 0 < totalCount episodes + count) :
    Kept (episodes ++ [(count, dimension)])
      (Stats.merged (totalCount episodes) count (running, dimension)) where
  min := by
    refine ⟨?_, fun episode member => ?_⟩
    · rw [List.map_append]
      simp only [Stats.merged]
      rcases min_choice running.min dimension.min with same | same
      · rw [same]
        exact List.mem_append_left _ kept.min.1
      · rw [same]
        exact List.mem_append_right _ (List.mem_singleton_self _)
    · rcases List.mem_append.mp member with earlier | own
      · exact (min_le_left _ _).trans (kept.min.2 episode earlier)
      · obtain rfl := List.mem_singleton.mp own
        exact min_le_right _ _
  max := by
    refine ⟨?_, fun episode member => ?_⟩
    · rw [List.map_append]
      simp only [Stats.merged]
      rcases max_choice running.max dimension.max with same | same
      · rw [same]
        exact List.mem_append_left _ kept.max.1
      · rw [same]
        exact List.mem_append_right _ (List.mem_singleton_self _)
    · rcases List.mem_append.mp member with earlier | own
      · exact (kept.max.2 episode earlier).trans (le_max_left _ _)
      · obtain rfl := List.mem_singleton.mp own
        exact le_max_right _ _
  pools := by
    have total : ((totalCount episodes : ℚ) + (count : ℚ)) ≠ 0 := by exact_mod_cast some_.ne'
    have more := kept.pools.append (sample (count, dimension)) total
    rw [List.map_append]
    simpa [Sample.merge, sample, Stats.merged, totalCount] using more

/-- What is returned for a dimension. -/
theorem Kept.finish (kept : Kept episodes running) :
    Pooled episodes (running.finish (totalCount episodes)) where
  min := kept.min
  max := kept.max
  mean := by
    have sums := kept.pools.mean
    simpa [Running.finish, weightedSum, sample, Function.comp_def] using sums
  variance := by
    have scattered : running.m2 = (episodes.map fun e => ((e.1 - 1 : Nat) : ℚ) * e.2.variance +
        (e.1 : ℚ) * (e.2.mean - running.mean) ^ 2).sum := by
      have sums := kept.pools.scatter
      simpa [scatterAbout, sample, scatter_eq, Function.comp_def] using sums
    by_cases few : totalCount episodes ≤ 1
    · simp [Running.finish, few, not_lt.mpr few]
    · simp only [Running.finish]
      rw [if_neg few, ← scattered, if_pos (not_le.mp few)]

/-- With observations there is one pooled dimension. -/
theorem Pooled.unique (pooled : Pooled episodes one) (other : Pooled episodes two)
    (some_ : 0 < totalCount episodes) : one = two := by
  have total : (totalCount episodes : ℚ) ≠ 0 := by exact_mod_cast some_.ne'
  have min : one.min = two.min := by
    obtain ⟨first, listed, same⟩ := List.mem_map.mp pooled.min.1
    obtain ⟨second, otherListed, otherSame⟩ := List.mem_map.mp other.min.1
    exact le_antisymm (otherSame ▸ pooled.min.2 second otherListed) (same ▸ other.min.2 first listed)
  have max : one.max = two.max := by
    obtain ⟨first, listed, same⟩ := List.mem_map.mp pooled.max.1
    obtain ⟨second, otherListed, otherSame⟩ := List.mem_map.mp other.max.1
    exact le_antisymm (same ▸ other.max.2 first listed) (otherSame ▸ pooled.max.2 second otherListed)
  have mean : one.mean = two.mean := mul_left_cancel₀ total (pooled.mean.trans other.mean.symm)
  have variance : one.variance = two.variance := by rw [pooled.variance, other.variance, mean]
  cases one
  cases two
  simp_all

theorem Pooled.perm (pooled : Pooled episodes result) (perm : episodes.Perm others) :
    Pooled others result := by
  have total : totalCount others = totalCount episodes := (perm.map _).sum_eq.symm
  refine ⟨⟨(perm.map _).mem_iff.mp pooled.min.1, fun e member => pooled.min.2 e (perm.mem_iff.mpr member)⟩,
    ⟨(perm.map _).mem_iff.mp pooled.max.1, fun e member => pooled.max.2 e (perm.mem_iff.mpr member)⟩, ?_, ?_⟩
  · rw [total, pooled.mean]
    exact (perm.map _).sum_eq
  · rw [total, pooled.variance, (perm.map _).sum_eq]

/-! ### All dimensions -/

theorem column_cons (i : Nat) (episode : Nat × FeatureStats) (rest : List (Nat × FeatureStats))
    (dimension : Moments) (found : episode.2[i]? = some dimension) :
    column i (episode :: rest) = (episode.1, dimension) :: column i rest := by
  simp [column, found]

theorem column_append (i : Nat) (episodes more : List (Nat × FeatureStats)) :
    column i (episodes ++ more) = column i episodes ++ column i more :=
  List.filterMap_append

theorem column_perm (i : Nat) (perm : episodes.Perm others) :
    (column i episodes).Perm (column i others) := perm.filterMap _

theorem getElem_of_length {stats : FeatureStats} (inside : i < stats.length) :
    ∃ dimension, stats[i]? = some dimension :=
  ⟨_, List.getElem?_eq_getElem inside⟩

/-- Every episode has every dimension. -/
theorem totalCount_column {episodes : List (Nat × FeatureStats)}
    (same : ∀ episode ∈ episodes, episode.2.length = dim) (inside : i < dim) :
    totalCount (column i episodes) = totalCount episodes := by
  induction episodes with
  | nil => rfl
  | cons episode rest ih =>
    obtain ⟨dimension, found⟩ := getElem_of_length (i := i)
      (inside.trans_eq (same episode List.mem_cons_self).symm)
    have later := ih fun other member => same other (List.mem_cons_of_mem _ member)
    rw [column_cons i episode rest dimension found]
    simpa [totalCount] using later

theorem mapM_eq_map {f : α → Option β} {g : α → β} {l : List α}
    (each : ∀ x ∈ l, f x = some (g x)) : l.mapM f = some (l.map g) := by
  induction l with
  | nil => rfl
  | cons x rest ih =>
    rw [List.mapM_cons, each x List.mem_cons_self, ih fun y member => each y (List.mem_cons_of_mem _ member)]
    rfl

/-- What is kept of some episodes of one dimension. -/
structure KeptAll (dim : Nat) (episodes : List (Nat × FeatureStats)) (state : Nat × List Running) :
    Prop where
  total : state.1 = totalCount episodes
  length : state.2.length = dim
  kept : ∀ i running, state.2[i]? = some running → Kept (column i episodes) running

theorem keptAll_first (first : Nat × FeatureStats) :
    KeptAll first.2.length [first] (first.1, first.2.map (Running.first first.1)) where
  total := by simp [totalCount]
  length := List.length_map _
  kept := by
    intro i running found
    obtain ⟨dimension, given, rfl⟩ := Option.map_eq_some_iff.mp (List.getElem?_map .. ▸ found)
    rw [column_cons i first [] dimension given]
    exact kept_first first.1 dimension

theorem KeptAll.merged {episodes : List (Nat × FeatureStats)} (kept : KeptAll dim episodes state)
    (same : ∀ episode ∈ episodes, episode.2.length = dim) (episode : Nat × FeatureStats)
    (own : episode.2.length = dim) (some_ : 0 < totalCount episodes + episode.1) :
    ∃ after, mergeEpisode state episode = some after ∧ KeptAll dim (episodes ++ [episode]) after := by
  have each : (state.2.zip episode.2).mapM (mergeDimension state.1 episode.1) =
      some ((state.2.zip episode.2).map (Stats.merged state.1 episode.1)) :=
    mapM_eq_map fun pair _ => mergeDimension_eq (by rw [kept.total]; exact some_) pair
  refine ⟨_, by rw [mergeEpisode, each]; rfl, ?_, ?_, ?_⟩
  · simp [kept.total, totalCount]
  · simp [kept.length, own]
  · intro i running found
    obtain ⟨⟨before, dimension⟩, zipped, rfl⟩ := Option.map_eq_some_iff.mp (List.getElem?_map .. ▸ found)
    obtain ⟨earlier, given⟩ := List.getElem?_zip_eq_some.mp zipped
    have inside : i < dim := by
      rw [← own]
      exact (List.getElem?_eq_some_iff.mp given).1
    have total := totalCount_column same inside
    rw [column_append, column_cons i episode [] dimension given, kept.total, ← total]
    exact (kept.kept i before earlier).merged episode.1 dimension (by rw [total]; exact some_)

/-- The loop over the rest of the episodes. -/
theorem KeptAll.foldlM {episodes rest : List (Nat × FeatureStats)} (kept : KeptAll dim episodes state)
    (same : ∀ episode ∈ episodes ++ rest, episode.2.length = dim)
    (some_ : ∀ earlier episode later, rest = earlier ++ episode :: later →
      0 < totalCount (episodes ++ earlier) + episode.1) :
    ∃ final, rest.foldlM mergeEpisode state = some final ∧ KeptAll dim (episodes ++ rest) final := by
  induction rest generalizing episodes state with
  | nil => exact ⟨state, rfl, by rwa [List.append_nil]⟩
  | cons episode rest ih =>
    have now := some_ [] episode rest rfl
    rw [List.append_nil] at now
    obtain ⟨after, once, keptAfter⟩ := kept.merged
      (fun other member => same other (List.mem_append_left _ member)) episode
      (same episode (List.mem_append_right _ List.mem_cons_self)) now
    rw [List.append_cons] at same ⊢
    obtain ⟨final, folded, keptFinal⟩ := ih keptAfter same fun earlier other later split => by
      rw [← List.append_cons]
      exact some_ (episode :: earlier) other later (by rw [split]; rfl)
    exact ⟨final, by rw [List.foldlM_cons, once]; exact folded, keptFinal⟩

/-! ### The result -/

/-- The episodes without frames. -/
def zeroCounts (episodes : List (Nat × FeatureStats)) : Nat := episodes.countP fun e => e.1 = 0

theorem totalCount_pos {episodes : List (Nat × FeatureStats)} (few : zeroCounts episodes ≤ 1)
    (two : 2 ≤ episodes.length) : 0 < totalCount episodes := by
  by_contra none
  have zero : totalCount episodes = 0 := by omega
  have all : ∀ e ∈ episodes, e.1 = 0 := by
    intro e member
    have least : e.1 ≤ totalCount episodes := List.le_sum_of_mem (List.mem_map_of_mem member)
    omega
  have count : zeroCounts episodes = episodes.length :=
    List.countP_eq_length.mpr fun e member => decide_eq_true (all e member)
  omega

section
variable {dim : Nat} {episodes : List (Nat × FeatureStats)}

theorem aggregate_nothing (same : ∀ episode ∈ episodes, episode.2.length = dim)
    (degenerate : episodes = [] ∨ dim = 0) : aggregateFeatureStats episodes = some none := by
  cases episodes with
  | nil => rfl
  | cons first rest =>
    have zero : first.2.length = 0 := by
      rw [same first List.mem_cons_self]
      exact degenerate.resolve_left (List.cons_ne_nil _ _)
    simp only [aggregateFeatureStats]
    exact if_pos zero

theorem aggregate_eq {first : Nat × FeatureStats} {rest : List (Nat × FeatureStats)}
    (same : ∀ episode ∈ first :: rest, episode.2.length = dim) (some_ : 0 < dim) :
    aggregateFeatureStats (first :: rest) =
      (rest.foldlM mergeEpisode (first.1, first.2.map (Running.first first.1))).map fun final =>
        some (final.2.map (Running.finish final.1)) := by
  have own := same first List.mem_cons_self
  have consistent : (first :: rest).any (fun episode => episode.2.length ≠ first.2.length) = false := by
    rw [own]
    exact List.any_eq_false.mpr fun episode member => by simp [same episode member]
  simp only [aggregateFeatureStats]
  rw [if_neg (by omega), if_neg (by simp only [consistent]; decide)]

theorem aggregate_pooled (same : ∀ episode ∈ episodes, episode.2.length = dim)
    (few : zeroCounts episodes ≤ 1) (nonempty : episodes ≠ []) (some_ : 0 < dim) :
    ∃ result, aggregateFeatureStats episodes = some (some result) ∧ result.length = dim ∧
      ∀ i dimension, result[i]? = some dimension → Pooled (column i episodes) dimension := by
  obtain ⟨first, rest, rfl⟩ := List.exists_cons_of_ne_nil nonempty
  have own := same first List.mem_cons_self
  subst own
  have positive : ∀ earlier episode later, rest = earlier ++ episode :: later →
      0 < totalCount ([first] ++ earlier) + episode.1 := by
    rintro earlier episode later rfl
    have inside : ([first] ++ earlier ++ [episode]).Sublist (first :: (earlier ++ episode :: later)) := by
      rw [List.append_assoc, List.singleton_append]
      refine List.Sublist.cons_cons _ (List.Sublist.append_left ?_ _)
      exact List.Sublist.cons_cons _ (List.nil_sublist _)
    have fewer : zeroCounts ([first] ++ earlier ++ [episode]) ≤ 1 :=
      (List.Sublist.countP_le inside).trans few
    have positive := totalCount_pos fewer (by simp)
    simpa [totalCount_append, totalCount, or_assoc] using positive
  obtain ⟨final, folded, kept⟩ := (keptAll_first first).foldlM same positive
  refine ⟨final.2.map (Running.finish final.1), ?_, ?_, ?_⟩
  · rw [aggregate_eq same some_, folded]
    rfl
  · rw [List.length_map, kept.length]
  · intro i dimension found
    obtain ⟨running, given, rfl⟩ := Option.map_eq_some_iff.mp (List.getElem?_map .. ▸ found)
    have inside : i < first.2.length := by
      rw [← kept.length]
      exact (List.getElem?_eq_some_iff.mp given).1
    have total : totalCount (column i (first :: rest)) = final.1 :=
      (totalCount_column same inside).trans kept.total.symm
    have finished := (kept.kept i running given).finish
    rwa [List.singleton_append, total] at finished

theorem aggregate_perm (same : ∀ episode ∈ episodes, episode.2.length = dim)
    (few : dim = 0 ∨ zeroCounts episodes ≤ 1) {others : List (Nat × FeatureStats)}
    (perm : others.Perm episodes) :
    aggregateFeatureStats others = aggregateFeatureStats episodes := by
  have otherSame : ∀ episode ∈ others, episode.2.length = dim :=
    fun episode member => same episode (perm.mem_iff.mp member)
  by_cases degenerate : episodes = [] ∨ dim = 0
  · have otherDegenerate : others = [] ∨ dim = 0 := by
      rcases degenerate with rfl | zero
      · exact .inl (List.perm_nil.mp perm)
      · exact .inr zero
    rw [aggregate_nothing same degenerate, aggregate_nothing otherSame otherDegenerate]
  obtain ⟨nonempty, positive⟩ := not_or.mp degenerate
  have fewer := few.resolve_left positive
  have otherFewer : zeroCounts others ≤ 1 := (perm.countP_eq _).trans_le fewer
  have otherNonempty : others ≠ [] := by
    rintro rfl
    exact nonempty (List.nil_perm.mp perm)
  by_cases single : episodes.length = 1
  · obtain ⟨episode, rfl⟩ := List.length_eq_one_iff.mp single
    rw [List.perm_singleton.mp perm]
  have two : 2 ≤ episodes.length := by
    have some_ := List.length_pos_iff.mpr nonempty
    omega
  obtain ⟨result, returned, size, pooled⟩ :=
    aggregate_pooled same fewer nonempty (Nat.pos_of_ne_zero positive)
  obtain ⟨other, otherReturned, otherSize, otherPooled⟩ :=
    aggregate_pooled otherSame otherFewer otherNonempty (Nat.pos_of_ne_zero positive)
  rw [returned, otherReturned]
  congr 2
  apply List.ext_getElem (otherSize.trans size.symm)
  intro i inside otherInside
  have own := pooled i _ (List.getElem?_eq_getElem otherInside)
  have theirs := (otherPooled i _ (List.getElem?_eq_getElem inside)).perm (column_perm i perm)
  apply theirs.unique own
  rw [totalCount_column same (by omega)]
  exact totalCount_pos fewer two

/-- Two episodes without frames, first in the list, are divided by their count. -/
theorem aggregate_divides_by_zero {first second : Nat × FeatureStats}
    (same : ∀ episode ∈ first :: second :: episodes, episode.2.length = dim) (some_ : 0 < dim)
    (firstZero : first.1 = 0) (secondZero : second.1 = 0) :
    aggregateFeatureStats (first :: second :: episodes) = none := by
  rw [aggregate_eq same some_, List.foldlM_cons]
  have firstLength := same first List.mem_cons_self
  have secondLength := same second (List.mem_cons_of_mem _ List.mem_cons_self)
  have fails : mergeEpisode (first.1, first.2.map (Running.first first.1)) second = none := by
    obtain ⟨count, firstDims⟩ := first
    obtain ⟨other, secondDims⟩ := second
    simp only at firstZero secondZero firstLength secondLength
    subst firstZero secondZero
    cases firstDims with
    | nil =>
      simp at firstLength
      omega
    | cons one _ =>
      cases secondDims with
      | nil =>
        simp at secondLength
        omega
      | cons two _ => simp [mergeEpisode, mergeDimension_zero]
  rw [fails]
  rfl

/-- A list with two episodes without frames, in the order that has them first. -/
theorem zeros_first (many : 2 ≤ zeroCounts episodes) : ∃ first second rest,
    (first :: second :: rest).Perm episodes ∧ first.1 = 0 ∧ second.1 = 0 := by
  have perm := List.filter_append_perm (fun episode : Nat × FeatureStats => decide (episode.1 = 0)) episodes
  have size : 2 ≤ (episodes.filter fun episode => decide (episode.1 = 0)).length := by
    rw [← List.countP_eq_length_filter]
    exact many
  have zeros : ∀ episode ∈ episodes.filter fun episode => decide (episode.1 = 0), episode.1 = 0 :=
    fun episode member => of_decide_eq_true (List.mem_filter.mp member).2
  generalize episodes.filter (fun episode => decide (episode.1 = 0)) = empty at perm size zeros
  obtain _ | ⟨first, _ | ⟨second, rest⟩⟩ := empty
  · simp at size
  · simp at size
  · exact ⟨first, second, _, perm, zeros first List.mem_cons_self,
      zeros second (List.mem_cons_of_mem _ List.mem_cons_self)⟩

end

/-- The aggregation is the pooled statistics, in every order, exactly if at most one episode
has no frames. -/
theorem aggregation_right_iff (dim : Nat) (episodes : List (Nat × FeatureStats))
    (same : ∀ episode ∈ episodes, episode.2.length = dim) :
    AggregatesRight dim episodes ↔ dim = 0 ∨ zeroCounts episodes ≤ 1 := by
  constructor
  · intro right
    by_contra many
    obtain ⟨positive, more⟩ := not_or.mp many
    obtain ⟨first, second, rest, perm, firstZero, secondZero⟩ := zeros_first (Nat.lt_of_not_le more)
    have otherSame : ∀ episode ∈ first :: second :: rest, episode.2.length = dim :=
      fun episode member => same episode (perm.mem_iff.mp member)
    have divided := aggregate_divides_by_zero otherSame (Nat.pos_of_ne_zero positive) firstZero secondZero
    have nonempty : episodes ≠ [] := by
      rintro rfl
      exact absurd (List.perm_nil.mp perm) (List.cons_ne_nil _ _)
    obtain ⟨result, returned, -⟩ := right.pooled nonempty (Nat.pos_of_ne_zero positive)
    have unchanged := right.permutation _ perm
    rw [returned] at unchanged
    exact Option.some_ne_none _ (unchanged.symm.trans divided)
  · intro few
    refine ⟨aggregate_nothing same, fun nonempty some_ => ?_, fun others => aggregate_perm same few⟩
    exact aggregate_pooled same (few.resolve_left some_.ne') nonempty some_

/-- Frames of one value in one dimension. -/
def constant (count : Nat) (value : ℚ) : Nat × FeatureStats := (count, [⟨value, value, value, 0⟩])

theorem aggregation_right_three : AggregatesRight 1 [constant 2 1, constant 0 5, constant 3 6] :=
  (aggregation_right_iff 1 [constant 2 1, constant 0 5, constant 3 6] (by simp [constant])).mpr
    (.inr (by decide))

/-- Two episodes without frames: the mean is moved by zero over zero. -/
theorem aggregation_of_empty_episodes :
    ¬ ∀ (dim : Nat) (episodes : List (Nat × FeatureStats)),
      (∀ episode ∈ episodes, episode.2.length = dim) → AggregatesRight dim episodes := by
  intro claimed
  have same : ∀ episode ∈ [constant 0 1, constant 0 2, constant 3 4], episode.2.length = 1 := by
    simp [constant]
  obtain ⟨result, returned, -⟩ := (claimed 1 _ same).pooled (by simp) (by decide)
  rw [aggregate_divides_by_zero same (by decide) rfl rfl] at returned
  cases returned

end Roboflow.Stats
