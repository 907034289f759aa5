import Roboflow.Stats.Aggregation
import Roboflow.Library.Kv

/-! The statistics of rows, `calculate_stats` of `parquet_base.rs`, against the global statistics that are
aggregated from those of the episodes. The first divides by the number of rows; the second takes what it is
given for a deviation that divides by one less. Over exact rationals, as the aggregation. -/
namespace Roboflow.Stats
open Library

/-! ### The statistics of rows -/

/-- One dimension of what `calculate_stats` keeps from row to row. -/
structure Sums where
  min : WithTop ℚ
  max : WithBot ℚ
  sum : ℚ
  sumSq : ℚ

def Sums.start : Sums := ⟨⊤, ⊥, 0, 0⟩

def Sums.add (sums : Sums) (val : ℚ) : Sums where
  min := Min.min sums.min val
  max := Max.max sums.max val
  sum := sums.sum + val
  sumSq := sums.sumSq + val * val

/-- One row: values past the dimension of the first row are not read. -/
def addRow (sums : List Sums) (row : List ℚ) : List Sums :=
  sums.mapIdx fun i dimension => row[i]?.elim dimension dimension.add

def Sums.finish (n : Nat) (sums : Sums) : Moments :=
  let mean := sums.sum / n
  { min := sums.min.untopD 0
    max := sums.max.unbotD 0
    mean := mean
    variance := Max.max (sums.sumSq / n - mean * mean) 0 }

/-- `calculate_stats`. -/
def calculateStats : List (List ℚ) → Option FeatureStats
  | [] => none
  | first :: rest =>
    if first = [] then none
    else
      some (((first :: rest).foldl addRow (List.replicate first.length .start)).map
        (Sums.finish (first :: rest).length))

/-! ### The statistics of a batch -/

/-- `EpisodeStats`, with what the aggregation reads. -/
structure EpisodeFeatures where
  frameCount : Nat
  featureStats : Kv String FeatureStats

/-- `add_feature`: statistics without dimensions are refused. -/
def EpisodeFeatures.addFeature (episode : EpisodeFeatures) (name : String) (stats : FeatureStats) :
    EpisodeFeatures :=
  if stats.length = 0 then episode
  else { episode with featureStats := episode.featureStats.put name stats }

/-- `calculate_global_stats` for one feature, over the episodes in the order in which their map gives
them. -/
def globalStats (name : String) (episodes : List EpisodeFeatures) : Option (Option FeatureStats) :=
  aggregateFeatureStats (episodes.filterMap fun episode =>
    (episode.featureStats.get name).map (Prod.mk episode.frameCount))

/-- An episode with the statistics of its rows, as `calculate_episode_stats` makes them and
`aggregate_statistics` adds them. -/
def recordEpisode (name : String) (rows : List (List ℚ)) : EpisodeFeatures :=
  match calculateStats rows with
  | some stats => (⟨rows.length, .empty⟩ : EpisodeFeatures).addFeature name stats
  | none => ⟨rows.length, .empty⟩

/-! ### What is promised -/

/-- Some episodes, each of some rows, all of one dimension. -/
structure Episodes (dim : Nat) where
  rows : List (List (List ℚ))
  positive : 0 < dim
  some_ : rows ≠ []
  nonempty : ∀ episode ∈ rows, episode ≠ []
  width : ∀ episode ∈ rows, ∀ row ∈ episode, row.length = dim

/-- In whatever order the map gives the episodes, the global statistics are those of all rows. -/
def AgreesWithRows {dim : Nat} (name : String) (episodes : Episodes dim) : Prop :=
  ∀ order, order.Perm (episodes.rows.map (recordEpisode name)) →
    globalStats name order = some (calculateStats episodes.rows.flatten)

/-- The values of one dimension. -/
def rowColumn (i : Nat) (rows : List (List ℚ)) : List ℚ := rows.filterMap (·[i]?)

/-- The mean of the squared distances from the mean. -/
def populationVariance (values : List ℚ) : ℚ :=
  (values.map fun x => (x - values.sum / values.length) ^ 2).sum / values.length

/-- In every dimension the variances of the episodes add up to that of all rows. -/
def VariancesAddUp {dim : Nat} (episodes : Episodes dim) : Prop :=
  ∀ i < dim, (episodes.rows.map fun rows => populationVariance (rowColumn i rows)).sum =
    populationVariance (rowColumn i episodes.rows.flatten)

/-! ### One dimension of some rows -/

/-- What `calculate_stats` finds of some values. -/
structure Describes (values : List ℚ) (moments : Moments) : Prop where
  min : moments.min ∈ values ∧ ∀ x ∈ values, moments.min ≤ x
  max : moments.max ∈ values ∧ ∀ x ∈ values, x ≤ moments.max
  mean : moments.mean = values.sum / values.length
  variance : moments.variance = populationVariance values

def sumsOf (values : List ℚ) : Sums := values.foldl Sums.add .start

theorem sumsOf_append (values : List ℚ) (x : ℚ) : sumsOf (values ++ [x]) = (sumsOf values).add x := by
  unfold sumsOf
  rw [List.foldl_append]
  rfl

theorem sumsOf_sum (values : List ℚ) : (sumsOf values).sum = values.sum := by
  induction values using List.reverseRecOn with
  | nil => rfl
  | append_singleton values x ih =>
    rw [sumsOf_append, List.sum_append, List.sum_singleton, ← ih]
    rfl

theorem sumsOf_sumSq (values : List ℚ) : (sumsOf values).sumSq = (values.map fun x => x * x).sum := by
  induction values using List.reverseRecOn with
  | nil => rfl
  | append_singleton values x ih =>
    rw [sumsOf_append, List.map_append, List.sum_append, ← ih]
    simp [Sums.add]

theorem sumsOf_min {values : List ℚ} (some_ : values ≠ []) :
    ∃ least : ℚ, (sumsOf values).min = least ∧ least ∈ values ∧ ∀ x ∈ values, least ≤ x := by
  induction values using List.reverseRecOn with
  | nil => exact absurd rfl some_
  | append_singleton values x ih =>
    rw [sumsOf_append]
    by_cases nothing : values = []
    · subst nothing
      refine ⟨x, ?_, by simp, by simp⟩
      exact min_eq_right le_top
    · obtain ⟨least, found, member, below⟩ := ih nothing
      refine ⟨min least x, ?_, ?_, ?_⟩
      · rw [WithTop.coe_min, ← found]
        rfl
      · rcases min_choice least x with same | same
        · rw [same]
          exact List.mem_append_left _ member
        · rw [same]
          exact List.mem_append_right _ (List.mem_singleton_self x)
      · intro y inside
        rcases List.mem_append.mp inside with earlier | last
        · exact (min_le_left _ _).trans (below y earlier)
        · obtain rfl := List.mem_singleton.mp last
          exact min_le_right _ _

theorem sumsOf_max {values : List ℚ} (some_ : values ≠ []) :
    ∃ greatest : ℚ, (sumsOf values).max = greatest ∧ greatest ∈ values ∧ ∀ x ∈ values, x ≤ greatest := by
  induction values using List.reverseRecOn with
  | nil => exact absurd rfl some_
  | append_singleton values x ih =>
    rw [sumsOf_append]
    by_cases nothing : values = []
    · subst nothing
      refine ⟨x, ?_, by simp, by simp⟩
      exact max_eq_right bot_le
    · obtain ⟨greatest, found, member, above⟩ := ih nothing
      refine ⟨max greatest x, ?_, ?_, ?_⟩
      · rw [WithBot.coe_max, ← found]
        rfl
      · rcases max_choice greatest x with same | same
        · rw [same]
          exact List.mem_append_left _ member
        · rw [same]
          exact List.mem_append_right _ (List.mem_singleton_self x)
      · intro y inside
        rcases List.mem_append.mp inside with earlier | last
        · exact (above y earlier).trans (le_max_left _ _)
        · obtain rfl := List.mem_singleton.mp last
          exact le_max_right _ _

theorem sum_squares_about (values : List ℚ) (centre : ℚ) :
    (values.map fun x => (x - centre) ^ 2).sum =
      (values.map fun x => x * x).sum - 2 * centre * values.sum + values.length * centre ^ 2 := by
  induction values with
  | nil => simp
  | cons x values ih =>
    simp only [List.map_cons, List.sum_cons, List.length_cons, Nat.cast_succ, ih]
    ring

/-- The mean of the squares less the square of the mean is the variance. -/
theorem populationVariance_eq {values : List ℚ} (some_ : values ≠ []) :
    populationVariance values = (values.map fun x => x * x).sum / values.length -
      values.sum / values.length * (values.sum / values.length) := by
  have count : (values.length : ℚ) ≠ 0 := by exact_mod_cast (List.length_pos_of_ne_nil some_).ne'
  unfold populationVariance
  rw [sum_squares_about]
  field_simp
  ring

theorem populationVariance_nonneg (values : List ℚ) : 0 ≤ populationVariance values := by
  apply div_nonneg _ (Nat.cast_nonneg _)
  apply List.sum_nonneg
  intro y member
  obtain ⟨x, _, rfl⟩ := List.mem_map.mp member
  exact sq_nonneg _

/-- One value varies by nothing. -/
theorem populationVariance_short {values : List ℚ} (short : values.length ≤ 1) :
    populationVariance values = 0 := by
  cases values with
  | nil => simp [populationVariance]
  | cons x rest =>
    have none : rest = [] := by
      apply List.eq_nil_of_length_eq_zero
      rw [List.length_cons] at short
      omega
    subst none
    simp [populationVariance]

theorem describes_sums {values : List ℚ} (some_ : values ≠ []) :
    Describes values ((sumsOf values).finish values.length) := by
  obtain ⟨least, least_found, least_of⟩ := sumsOf_min some_
  obtain ⟨greatest, greatest_found, greatest_of⟩ := sumsOf_max some_
  refine ⟨?_, ?_, ?_, ?_⟩
  · unfold Sums.finish
    rw [least_found]
    exact least_of
  · unfold Sums.finish
    rw [greatest_found]
    exact greatest_of
  · unfold Sums.finish
    rw [sumsOf_sum]
  · unfold Sums.finish
    dsimp only
    rw [sumsOf_sum, sumsOf_sumSq, ← populationVariance_eq some_]
    exact max_eq_left (populationVariance_nonneg values)

/-! ### Every dimension of some rows -/

theorem getElem?_addRow (sums : List Sums) (row : List ℚ) (i : Nat) :
    (addRow sums row)[i]? = sums[i]?.map fun dimension => row[i]?.elim dimension dimension.add :=
  List.getElem?_mapIdx

theorem getElem?_foldl_addRow (rows : List (List ℚ)) (sums : List Sums) (i : Nat) :
    (rows.foldl addRow sums)[i]? = sums[i]?.map fun dimension => (rowColumn i rows).foldl Sums.add dimension := by
  induction rows generalizing sums with
  | nil => simp [rowColumn]
  | cons row rows ih =>
    rw [List.foldl_cons, ih, getElem?_addRow, Option.map_map]
    congr 1
    funext dimension
    unfold rowColumn
    cases found : row[i]? with
    | none => simp [found]
    | some val => simp [found]

section
variable {rows : List (List ℚ)} {dim i : Nat}

theorem length_rowColumn (width : ∀ row ∈ rows, row.length = dim) (inside : i < dim) :
    (rowColumn i rows).length = rows.length := by
  unfold rowColumn
  rw [List.length_filterMap_eq_countP, List.countP_eq_length]
  intro row member
  have within : i < row.length := (width row member).symm ▸ inside
  rw [List.getElem?_eq_getElem within]
  rfl

theorem rowColumn_ne_nil (width : ∀ row ∈ rows, row.length = dim) (inside : i < dim) (some_ : rows ≠ []) :
    rowColumn i rows ≠ [] := by
  intro nothing
  have count := length_rowColumn width inside
  rw [nothing] at count
  exact some_ (List.eq_nil_of_length_eq_zero count.symm)

theorem rowColumn_flatten (i : Nat) (episodes : List (List (List ℚ))) :
    rowColumn i episodes.flatten = (episodes.map (rowColumn i)).flatten :=
  List.filterMap_flatten

/-- The statistics of rows of one dimension describe each of its columns. -/
theorem calculateStats_some (positive : 0 < dim) (some_ : rows ≠ [])
    (width : ∀ row ∈ rows, row.length = dim) :
    ∃ stats, calculateStats rows = some stats ∧ stats.length = dim ∧
      ∀ i < dim, ∃ moments, stats[i]? = some moments ∧ Describes (rowColumn i rows) moments := by
  cases rows with
  | nil => exact absurd rfl some_
  | cons first rest =>
    have own : first.length = dim := width first List.mem_cons_self
    have long : first ≠ [] := by
      apply List.ne_nil_of_length_pos
      rw [own]
      exact positive
    have each (i : Nat) (inside : i < dim) :
        (((first :: rest).foldl addRow (List.replicate first.length .start)).map
          (Sums.finish (first :: rest).length))[i]? =
        some ((sumsOf (rowColumn i (first :: rest))).finish (rowColumn i (first :: rest)).length) := by
      have start : (List.replicate first.length Sums.start)[i]? = some Sums.start := by
        rw [List.getElem?_replicate, if_pos (by rw [own]; exact inside)]
      rw [List.getElem?_map, getElem?_foldl_addRow, start, length_rowColumn width inside]
      rfl
    refine ⟨_, if_neg long, ?_, ?_⟩
    · have kept : ∀ (rows : List (List ℚ)) (sums : List Sums), (rows.foldl addRow sums).length = sums.length := by
        intro rows
        induction rows with
        | nil => exact fun sums => rfl
        | cons row rows ih =>
          intro sums
          rw [List.foldl_cons, ih]
          exact List.length_mapIdx
      rw [List.length_map, kept, List.length_replicate, own]
    · intro i inside
      exact ⟨_, each i inside, describes_sums (rowColumn_ne_nil width inside some_)⟩

end

/-! ### One dimension of all episodes -/

theorem Describes.pools {values : List ℚ} {moments : Moments} (describes : Describes values moments)
    (some_ : values ≠ []) : Pools (values.map observation)
      ⟨values.length, moments.mean, values.length * moments.variance⟩ := by
  have count : (values.length : ℚ) ≠ 0 := by exact_mod_cast (List.length_pos_of_ne_nil some_).ne'
  constructor
  · simp [totalWeight, observation, Function.comp_def]
  · simp only [weightedSum, observation, List.map_map, Function.comp_def, one_mul, List.map_id']
    rw [describes.mean]
    field_simp
  · simp only [scatterAbout, observation, List.map_map, Function.comp_def, one_mul, zero_add]
    rw [describes.variance, describes.mean, populationVariance]
    field_simp

section
variable {α : Type} {groups : List α} {values : α → List ℚ} {moments : α → Moments}

theorem totalCount_groups (groups : List α) (values : α → List ℚ) (moments : α → Moments) :
    totalCount (groups.map fun group => ((values group).length, moments group)) =
      (groups.map values).flatten.length := by
  simp [totalCount, List.length_flatten, Function.comp_def]

/-- Least, greatest and mean of the groups are those of all values. -/
theorem pooled_bounds {result whole : Moments}
    (describes : ∀ group ∈ groups, Describes (values group) (moments group))
    (pooled : Pooled (groups.map fun group => ((values group).length, moments group)) result)
    (all : Describes (groups.map values).flatten whole) :
    result.min = whole.min ∧ result.max = whole.max := by
  have within {x : ℚ} : x ∈ (groups.map values).flatten ↔ ∃ group ∈ groups, x ∈ values group := by
    simp [List.mem_flatten]
  constructor
  · apply le_antisymm
    · obtain ⟨group, member, inside⟩ := within.mp all.min.1
      have least := pooled.min.2 _ (List.mem_map_of_mem member)
      exact least.trans ((describes group member).min.2 _ inside)
    · obtain ⟨entry, listed, same⟩ := List.mem_map.mp pooled.min.1
      obtain ⟨group, member, rfl⟩ := List.mem_map.mp listed
      rw [← same]
      exact all.min.2 _ (within.mpr ⟨group, member, (describes group member).min.1⟩)
  · apply le_antisymm
    · obtain ⟨entry, listed, same⟩ := List.mem_map.mp pooled.max.1
      obtain ⟨group, member, rfl⟩ := List.mem_map.mp listed
      rw [← same]
      exact all.max.2 _ (within.mpr ⟨group, member, (describes group member).max.1⟩)
    · obtain ⟨group, member, inside⟩ := within.mp all.max.1
      have greatest := pooled.max.2 _ (List.mem_map_of_mem member)
      exact ((describes group member).max.2 _ inside).trans greatest

theorem length_mul_mean {values : List ℚ} {moments : Moments} (describes : Describes values moments)
    (some_ : values ≠ []) : (values.length : ℚ) * moments.mean = values.sum := by
  have count : (values.length : ℚ) ≠ 0 := by exact_mod_cast (List.length_pos_of_ne_nil some_).ne'
  rw [describes.mean]
  field_simp

theorem pooled_mean {result whole : Moments} (nonempty : ∀ group ∈ groups, values group ≠ [])
    (describes : ∀ group ∈ groups, Describes (values group) (moments group))
    (pooled : Pooled (groups.map fun group => ((values group).length, moments group)) result)
    (all : Describes (groups.map values).flatten whole) (some_ : (groups.map values).flatten ≠ []) :
    result.mean = whole.mean := by
  have count : ((groups.map values).flatten.length : ℚ) ≠ 0 := by
    exact_mod_cast (List.length_pos_of_ne_nil some_).ne'
  have sums : (groups.map fun group => ((values group).length : ℚ) * (moments group).mean) =
      groups.map fun group => (values group).sum := by
    apply List.map_congr_left
    intro group member
    exact length_mul_mean (describes group member) (nonempty group member)
  have mean := pooled.mean
  rw [totalCount_groups, List.map_map] at mean
  apply mul_left_cancel₀ count
  rw [mean, length_mul_mean all some_, List.sum_flatten, List.map_map]
  exact congrArg List.sum sums

/-- All values lie as far from their mean as the groups do, and every group's values from its own. -/
theorem scatter_groups {whole : Moments} (nonempty : ∀ group ∈ groups, values group ≠ [])
    (describes : ∀ group ∈ groups, Describes (values group) (moments group))
    (all : Describes (groups.map values).flatten whole) (some_ : (groups.map values).flatten ≠ []) :
    ((groups.map values).flatten.length : ℚ) * whole.variance =
      (groups.map fun group => ((values group).length : ℚ) * (moments group).variance +
        (values group).length * ((moments group).mean - whole.mean) ^ 2).sum := by
  have apart := scatterAbout_flatten whole.mean fun group member =>
    (describes group member).pools (nonempty group member)
  have joined : (groups.map fun group => (values group).map observation).flatten =
      (groups.map values).flatten.map observation := by
    rw [List.map_flatten, List.map_map]
    rfl
  rw [joined] at apart
  have pool := (all.pools some_).scatter
  dsimp only at pool
  rw [pool, apart, scatterAbout, List.map_map]
  rfl

/-- The pooled statistics of groups are those of all values exactly if the variances add up. -/
theorem pooled_eq_iff {result whole : Moments} (nonempty : ∀ group ∈ groups, values group ≠ [])
    (describes : ∀ group ∈ groups, Describes (values group) (moments group)) (some_ : groups ≠ [])
    (pooled : Pooled (groups.map fun group => ((values group).length, moments group)) result)
    (all : Describes (groups.map values).flatten whole) :
    result = whole ↔ (groups.map fun group => (moments group).variance).sum = whole.variance := by
  have values_some : (groups.map values).flatten ≠ [] := by
    obtain ⟨group, rest, rfl⟩ := List.exists_cons_of_ne_nil some_
    intro nothing
    have own := nonempty group List.mem_cons_self
    rw [List.map_cons, List.flatten_cons, List.append_eq_nil_iff] at nothing
    exact own nothing.1
  obtain ⟨min, max⟩ := pooled_bounds describes pooled all
  have mean := pooled_mean nonempty describes pooled all values_some
  have scatter := scatter_groups nonempty describes all values_some
  have same : result = whole ↔ result.variance = whole.variance := by
    constructor
    · rintro rfl
      rfl
    · intro variance
      cases result
      cases whole
      simp_all only
  have variance := pooled.variance
  rw [totalCount_groups, List.map_map] at variance
  rw [same, variance]
  by_cases few : (groups.map values).flatten.length ≤ 1
  · have nothing : (groups.map fun group => (moments group).variance).sum = 0 := by
      apply List.sum_eq_zero
      intro v listed
      obtain ⟨group, member, rfl⟩ := List.mem_map.mp listed
      rw [(describes group member).variance]
      apply populationVariance_short
      have part : List.Sublist (values group) (groups.map values).flatten :=
        List.sublist_flatten_of_mem (List.mem_map_of_mem member)
      exact part.length_le.trans few
    rw [if_pos few, nothing, all.variance, populationVariance_short few]
  · have less : ((groups.map fun group => (((values group).length - 1 : Nat) : ℚ) * (moments group).variance +
        ((values group).length : ℚ) * ((moments group).mean - result.mean) ^ 2).sum) =
        (groups.map values).flatten.length * whole.variance -
          (groups.map fun group => (moments group).variance).sum := by
      rw [eq_sub_iff_add_eq, scatter, mean, ← List.sum_map_add]
      congr 1
      apply List.map_congr_left
      intro group member
      have one : 1 ≤ (values group).length := List.length_pos_of_ne_nil (nonempty group member)
      rw [Nat.cast_sub one]
      ring
    have positive : (((groups.map values).flatten.length - 1 : Nat) : ℚ) ≠ 0 := by
      have : (groups.map values).flatten.length - 1 ≠ 0 := by omega
      exact_mod_cast this
    have one : 1 ≤ (groups.map values).flatten.length := by omega
    rw [if_neg few]
    change (groups.map fun group => (((values group).length - 1 : Nat) : ℚ) * (moments group).variance +
        ((values group).length : ℚ) * ((moments group).mean - result.mean) ^ 2).sum / _ = _ ↔ _
    rw [less, div_eq_iff positive, Nat.cast_sub one, Nat.cast_one]
    constructor
    · intro equal
      linarith
    · intro equal
      rw [equal]
      ring

end

/-! ### All dimensions -/

section
variable {dim : Nat}

theorem Episodes.flatten_some (episodes : Episodes dim) : episodes.rows.flatten ≠ [] := by
  obtain ⟨first, rest, whole⟩ := List.exists_cons_of_ne_nil episodes.some_
  have own := episodes.nonempty first (whole ▸ List.mem_cons_self)
  intro nothing
  rw [whole, List.flatten_cons, List.append_eq_nil_iff] at nothing
  exact own nothing.1

theorem Episodes.flatten_width (episodes : Episodes dim) : ∀ row ∈ episodes.rows.flatten, row.length = dim := by
  intro row member
  obtain ⟨episode, listed, inside⟩ := List.mem_flatten.mp member
  exact episodes.width episode listed row inside

/-- What is recorded of an episode. -/
def statsOf (rows : List (List ℚ)) : FeatureStats := (calculateStats rows).getD []

theorem Episodes.statsOf_spec (episodes : Episodes dim) {rows : List (List ℚ)} (member : rows ∈ episodes.rows) :
    calculateStats rows = some (statsOf rows) ∧ (statsOf rows).length = dim ∧
      ∀ i < dim, ∃ moments, (statsOf rows)[i]? = some moments ∧ Describes (rowColumn i rows) moments := by
  obtain ⟨stats, found, length, described⟩ := calculateStats_some episodes.positive
    (episodes.nonempty rows member) (episodes.width rows member)
  unfold statsOf
  rw [found]
  exact ⟨rfl, length, described⟩

/-- The pairs that the aggregation is given. -/
theorem Episodes.recorded (episodes : Episodes dim) (name : String) :
    (episodes.rows.map (recordEpisode name)).filterMap (fun episode =>
      (episode.featureStats.get name).map (Prod.mk episode.frameCount)) =
    episodes.rows.map fun rows => (rows.length, statsOf rows) := by
  rw [List.filterMap_map, ← List.filterMap_eq_map]
  apply List.filterMap_congr
  intro rows member
  obtain ⟨found, length, _⟩ := episodes.statsOf_spec member
  have positive := episodes.positive
  have refused : ¬(statsOf rows).length = 0 := by omega
  unfold Function.comp recordEpisode
  rw [found]
  unfold EpisodeFeatures.addFeature
  dsimp only
  rw [if_neg refused]
  dsimp only
  rw [Kv.get_put_self]
  rfl

/-- One dimension of an episode's statistics. -/
def dimensionOf (i : Nat) (rows : List (List ℚ)) : Moments := (statsOf rows)[i]?.getD ⟨0, 0, 0, 0⟩

theorem Episodes.dimensionOf_spec (episodes : Episodes dim) {rows : List (List ℚ)} {i : Nat}
    (member : rows ∈ episodes.rows) (inside : i < dim) :
    (statsOf rows)[i]? = some (dimensionOf i rows) ∧ Describes (rowColumn i rows) (dimensionOf i rows) := by
  obtain ⟨moments, found, described⟩ := (episodes.statsOf_spec member).2.2 i inside
  unfold dimensionOf
  rw [found]
  exact ⟨rfl, described⟩

theorem Episodes.column_recorded (episodes : Episodes dim) {i : Nat} (inside : i < dim) :
    column i (episodes.rows.map fun rows => (rows.length, statsOf rows)) =
      episodes.rows.map fun rows => ((rowColumn i rows).length, dimensionOf i rows) := by
  unfold column
  rw [List.filterMap_map, ← List.filterMap_eq_map]
  apply List.filterMap_congr
  intro rows member
  have found := (episodes.dimensionOf_spec member inside).1
  unfold Function.comp
  dsimp only
  rw [found, length_rowColumn (episodes.width rows member) inside]
  rfl

/-- The global statistics are those of all rows exactly if in every dimension the variances of the episodes
add up to that of all rows: they do for one episode, and hardly ever for more. -/
theorem concatenation_agrees_iff (name : String) (episodes : Episodes dim) :
    AgreesWithRows name episodes ↔ VariancesAddUp episodes := by
  have same : ∀ episode ∈ episodes.rows.map (fun rows => (rows.length, statsOf rows)), episode.2.length = dim := by
    intro episode listed
    obtain ⟨rows, member, rfl⟩ := List.mem_map.mp listed
    exact (episodes.statsOf_spec member).2.1
  have few : zeroCounts (episodes.rows.map fun rows => (rows.length, statsOf rows)) ≤ 1 := by
    have none : zeroCounts (episodes.rows.map fun rows => (rows.length, statsOf rows)) = 0 := by
      unfold zeroCounts
      rw [List.countP_eq_zero]
      intro episode listed
      obtain ⟨rows, member, rfl⟩ := List.mem_map.mp listed
      simpa using episodes.nonempty rows member
    omega
  obtain ⟨result, returned, length, pooled⟩ :=
    aggregate_pooled same few (by simpa using episodes.some_) episodes.positive
  obtain ⟨whole, found, size, described⟩ :=
    calculateStats_some episodes.positive episodes.flatten_some episodes.flatten_width
  have agrees : AgreesWithRows name episodes ↔ result = whole := by
    unfold AgreesWithRows globalStats
    rw [found]
    constructor
    · intro all
      have own := all _ (List.Perm.refl _)
      rw [episodes.recorded, returned] at own
      exact Option.some.inj (Option.some.inj own)
    · rintro rfl order perm
      have given := (perm.filterMap fun episode : EpisodeFeatures =>
        (episode.featureStats.get name).map (Prod.mk episode.frameCount))
      rw [episodes.recorded] at given
      rw [aggregate_perm same (.inr few) given, returned]
  have each (i : Nat) (inside : i < dim) : result[i]? = whole[i]? ↔
      (episodes.rows.map fun rows => populationVariance (rowColumn i rows)).sum =
        populationVariance (rowColumn i episodes.rows.flatten) := by
    obtain ⟨moments, at_, describes⟩ := described i inside
    have within : i < result.length := by omega
    have dimension := pooled i _ (List.getElem?_eq_getElem within)
    rw [episodes.column_recorded inside] at dimension
    rw [rowColumn_flatten] at describes
    have one : result[i] = moments ↔
        (episodes.rows.map fun rows => (dimensionOf i rows).variance).sum = moments.variance := by
      refine pooled_eq_iff ?_ ?_ episodes.some_ dimension describes
      · exact fun rows member =>
          rowColumn_ne_nil (episodes.width rows member) inside (episodes.nonempty rows member)
      · exact fun rows member => (episodes.dimensionOf_spec member inside).2
    have variances : (episodes.rows.map fun rows => (dimensionOf i rows).variance) =
        episodes.rows.map fun rows => populationVariance (rowColumn i rows) := by
      apply List.map_congr_left
      intro rows member
      exact (episodes.dimensionOf_spec member inside).2.variance
    rw [at_, List.getElem?_eq_getElem within, Option.some_inj, one, variances, describes.variance,
      rowColumn_flatten]
  rw [agrees]
  constructor
  · rintro rfl i inside
    exact (each i inside).mp rfl
  · intro add
    apply List.ext_getElem?
    intro i
    by_cases inside : i < dim
    · exact (each i inside).mpr (add i inside)
    · rw [List.getElem?_eq_none (by omega), List.getElem?_eq_none (by omega)]

end

/-- The variance of one episode is that of all rows. -/
theorem variancesAddUp_single {dim : Nat} {episodes : Episodes dim} {rows : List (List ℚ)}
    (single : episodes.rows = [rows]) : VariancesAddUp episodes := by
  intro i inside
  simp [single]

/-- Two episodes, each with a zero and a two. -/
def zeroAndTwo : Episodes 1 where
  rows := [[[0], [2]], [[0], [2]]]
  positive := Nat.one_pos
  some_ := by simp
  nonempty := by simp
  width := by simp

/-- Each varies by one, and so do all rows, but the global variance is two thirds. -/
theorem deviations_divided_apart : ¬∀ (dim : Nat) (name : String) (episodes : Episodes dim),
    AgreesWithRows name episodes := by
  intro all
  have agrees := all 1 "action" zeroAndTwo _ (List.Perm.refl _)
  have rows : calculateStats zeroAndTwo.rows.flatten = some [⟨0, 2, 1, 1⟩] := by decide +kernel
  have global : globalStats "action" (zeroAndTwo.rows.map (recordEpisode "action")) =
      some (some [⟨0, 2, 1, 2 / 3⟩]) := by decide +kernel
  rw [rows, global] at agrees
  norm_num at agrees

end Roboflow.Stats
