import Mathlib

/-! Pooling samples that are known by their weight, their mean and the sum of their squared
distances from it. Two samples are merged by one formula, which divides by the weight of
both; merging one sample after the other keeps the sample of all observations so far. -/
namespace Library

variable {K : Type} [Field K]

@[ext] structure Sample (K : Type) where
  weight : K
  mean : K
  scatter : K

namespace Sample

/-- The sample of all the observations of two. -/
def merge (one other : Sample K) : Sample K where
  weight := one.weight + other.weight
  mean := one.mean + (other.mean - one.mean) * other.weight / (one.weight + other.weight)
  scatter := one.scatter + (other.scatter +
    (other.mean - one.mean) * (other.mean - one.mean) * one.weight * other.weight /
      (one.weight + other.weight))

end Sample

def totalWeight (samples : List (Sample K)) : K := (samples.map Sample.weight).sum

def weightedSum (samples : List (Sample K)) : K :=
  (samples.map fun sample => sample.weight * sample.mean).sum

/-- The squared distances of all observations from a centre. -/
def scatterAbout (centre : K) (samples : List (Sample K)) : K :=
  (samples.map fun sample => sample.scatter + sample.weight * (sample.mean - centre) ^ 2).sum

/-- The sample of all the observations of a list. -/
structure Pools (samples : List (Sample K)) (pool : Sample K) : Prop where
  weight : pool.weight = totalWeight samples
  mean : pool.weight * pool.mean = weightedSum samples
  scatter : pool.scatter = scatterAbout pool.mean samples

theorem pools_singleton (sample : Sample K) : Pools [sample] sample := by
  constructor <;> simp [totalWeight, weightedSum, scatterAbout]

/-- Moving the centre costs the weight times the square of the move, when the old centre was
the mean. -/
theorem scatterAbout_move (samples : List (Sample K)) (centre other : K) :
    scatterAbout other samples = scatterAbout centre samples +
      2 * (centre - other) * (weightedSum samples - totalWeight samples * centre) +
      totalWeight samples * (centre - other) ^ 2 := by
  induction samples with
  | nil => simp [scatterAbout, weightedSum, totalWeight]
  | cons sample rest ih =>
    simp only [scatterAbout, weightedSum, totalWeight, List.map_cons, List.sum_cons] at ih ⊢
    rw [ih]
    ring

theorem Pools.append (pools : Pools samples pool) (sample : Sample K)
    (some_ : pool.weight + sample.weight ≠ 0) : Pools (samples ++ [sample]) (pool.merge sample) := by
  have weights : totalWeight (samples ++ [sample]) = totalWeight samples + sample.weight := by
    simp [totalWeight]
  have sums : weightedSum (samples ++ [sample]) = weightedSum samples + sample.weight * sample.mean := by
    simp [weightedSum]
  have scatters : ∀ centre, scatterAbout centre (samples ++ [sample]) =
      scatterAbout centre samples + (sample.scatter + sample.weight * (sample.mean - centre) ^ 2) := by
    intro centre
    simp [scatterAbout]
  constructor
  · rw [weights, ← pools.weight]
    rfl
  · rw [sums, ← pools.mean]
    simp only [Sample.merge]
    field_simp
    ring
  · rw [scatters, scatterAbout_move samples pool.mean, ← pools.scatter, ← pools.weight, ← pools.mean]
    simp only [Sample.merge]
    field_simp
    ring

/-! ### Pools of pools -/

/-- One observation. -/
def observation (value : K) : Sample K := ⟨1, value, 0⟩

/-- The distances of the observations from a centre are those of their pool. -/
theorem Pools.scatterAbout (pools : Pools samples pool) (centre : K) :
    scatterAbout centre samples = pool.scatter + pool.weight * (pool.mean - centre) ^ 2 := by
  rw [scatterAbout_move samples pool.mean, ← pools.scatter, ← pools.weight, ← pools.mean]
  ring

theorem scatterAbout_append (centre : K) (samples more : List (Sample K)) :
    Library.scatterAbout centre (samples ++ more) =
      Library.scatterAbout centre samples + Library.scatterAbout centre more := by
  simp [Library.scatterAbout]

/-- Groups of observations are as far from a centre as their pools are. -/
theorem scatterAbout_flatten (centre : K) {groups : List α} {members : α → List (Sample K)}
    {pool : α → Sample K} (pools : ∀ group ∈ groups, Pools (members group) (pool group)) :
    scatterAbout centre (groups.map members).flatten = scatterAbout centre (groups.map pool) := by
  induction groups with
  | nil => rfl
  | cons group rest ih =>
    rw [List.map_cons, List.flatten_cons, scatterAbout_append,
      (pools group List.mem_cons_self).scatterAbout,
      ih fun other member => pools other (List.mem_cons_of_mem _ member)]
    simp [Library.scatterAbout]

end Library
