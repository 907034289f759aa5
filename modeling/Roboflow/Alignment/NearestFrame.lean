import Roboflow.Alignment.Buffer

/-! The rounding of timestamps to frame boundaries. Half an interval is rounded up, so that
with an odd interval the timestamps just below the middle go up too. -/
namespace Roboflow.Alignment

/-- How far apart two times are. -/
def distance (one other : Nat) : Nat := max one other - min one other

/-- What rounding a timestamp to its nearest frame comes to; later timestamps are those below
`u64::MAX` by more than one interval. -/
structure NearestFrame (config : StreamingConfig) (timestamp : Nat) : Prop where
  interval : config.frameIntervalNs ≠ 0
  multiple : config.frameIntervalNs ∣ config.alignToFrameBoundary timestamp
  near : 2 * distance (config.alignToFrameBoundary timestamp) timestamp ≤ config.frameIntervalNs
  nearest : ∀ k, distance (config.alignToFrameBoundary timestamp) timestamp ≤
    distance (k * config.frameIntervalNs) timestamp
  monotone : ∀ later, timestamp ≤ later → later < 2 ^ 64 - 1 - config.frameIntervalNs →
    config.alignToFrameBoundary timestamp ≤ config.alignToFrameBoundary later
  idempotent : config.alignToFrameBoundary (config.alignToFrameBoundary timestamp) =
    config.alignToFrameBoundary timestamp

section
variable {config : StreamingConfig} {timestamp : Nat}

theorem frameIntervalNs_pos (some_ : 1 ≤ config.fps) (atMost : config.fps ≤ 1000000000) :
    0 < config.frameIntervalNs := Nat.div_pos atMost some_

theorem frameIntervalNs_le (config : StreamingConfig) : config.frameIntervalNs ≤ 1000000000 := Nat.div_le_self _ _

/-- Away from the top the sums are not cut off. -/
theorem alignToFrameBoundary_eq (below : timestamp + (config.frameIntervalNs + 1) / 2 < 2 ^ 64)
    (some_ : 0 < config.frameIntervalNs) :
    config.alignToFrameBoundary timestamp =
      (timestamp + (config.frameIntervalNs + 1) / 2) / config.frameIntervalNs * config.frameIntervalNs := by
  unfold StreamingConfig.alignToFrameBoundary saturatingAdd
  simp only
  have small := frameIntervalNs_le config
  rw [min_eq_left (a := config.frameIntervalNs + 1) (by omega), min_eq_left (by omega)]

/-- A multiple of the interval and a rest: the rest decides which way it goes. -/
theorem alignToFrameBoundary_rest (q : Nat) {rest : Nat} (inside : rest < config.frameIntervalNs)
    (below : q * config.frameIntervalNs + rest + (config.frameIntervalNs + 1) / 2 < 2 ^ 64) :
    config.alignToFrameBoundary (q * config.frameIntervalNs + rest) =
      if rest + (config.frameIntervalNs + 1) / 2 < config.frameIntervalNs then
        q * config.frameIntervalNs
      else (q + 1) * config.frameIntervalNs := by
  have some_ : 0 < config.frameIntervalNs := by omega
  rw [alignToFrameBoundary_eq below some_]
  generalize config.frameIntervalNs = interval at *
  split
  · rename_i down
    have moved : q * interval + rest + (interval + 1) / 2 = rest + (interval + 1) / 2 + q * interval := by
      omega
    rw [moved, Nat.add_mul_div_right _ _ some_, Nat.div_eq_of_lt down, Nat.zero_add]
  · rename_i up
    have inner : rest + (interval + 1) / 2 - interval < interval := by omega
    have moved : q * interval + rest + (interval + 1) / 2 =
        rest + (interval + 1) / 2 - interval + (q + 1) * interval := by
      rw [Nat.add_mul]
      omega
    rw [moved, Nat.add_mul_div_right _ _ some_, Nat.div_eq_of_lt inner, Nat.zero_add]

/-- A boundary stays, unless every nanosecond is one. -/
theorem alignToFrameBoundary_boundary (q : Nat) (more : 1 < config.frameIntervalNs)
    (below : q * config.frameIntervalNs + (config.frameIntervalNs + 1) / 2 < 2 ^ 64) :
    config.alignToFrameBoundary (q * config.frameIntervalNs) = q * config.frameIntervalNs := by
  have none_ : 0 < config.frameIntervalNs := by omega
  have same := alignToFrameBoundary_rest q none_ below
  rw [Nat.add_zero, if_pos (by omega)] at same
  exact same

/-- Neither side of a multiple is nearer than the nearer end of its interval. -/
theorem distance_le_of_ends {interval q rest near : Nat} (inside : rest < interval)
    (lower : near ≤ rest) (upper : near ≤ interval - rest) (k : Nat) :
    near ≤ distance (k * interval) (q * interval + rest) := by
  unfold distance
  rcases Nat.lt_or_ge q k with after | before
  · have jump : (q + 1) * interval ≤ k * interval := Nat.mul_le_mul_right _ after
    rw [Nat.add_mul] at jump
    omega
  · have jump : k * interval ≤ q * interval := Nat.mul_le_mul_right _ before
    omega

theorem alignToFrameBoundary_mono (some_ : 0 < config.frameIntervalNs) (ordered : timestamp ≤ later)
    (below : later + (config.frameIntervalNs + 1) / 2 < 2 ^ 64) :
    config.alignToFrameBoundary timestamp ≤ config.alignToFrameBoundary later := by
  rw [alignToFrameBoundary_eq (by omega) some_, alignToFrameBoundary_eq below some_]
  apply Nat.mul_le_mul_right
  apply Nat.div_le_div_right
  omega

end

/-- A timestamp goes to its nearest frame exactly if the interval is even or the timestamp is
not the one just below the middle. -/
theorem nearest_frame_iff (config : StreamingConfig) (some_ : 1 ≤ config.fps)
    (atMost : config.fps ≤ 1000000000) (timestamp : Nat)
    (below : timestamp < 2 ^ 64 - 1 - config.frameIntervalNs) :
    NearestFrame config timestamp ↔
      config.frameIntervalNs % 2 = 0 ∨
        timestamp % config.frameIntervalNs ≠ (config.frameIntervalNs - 1) / 2 := by
  have positive := frameIntervalNs_pos some_ atMost
  have small := frameIntervalNs_le config
  have inside := Nat.mod_lt timestamp positive
  obtain ⟨q, rest, split, restIs⟩ : ∃ q rest, timestamp = q * config.frameIntervalNs + rest ∧
      rest = timestamp % config.frameIntervalNs :=
    ⟨_, _, (Nat.div_add_mod' timestamp config.frameIntervalNs).symm, rfl⟩
  rw [← restIs] at inside ⊢
  have rounded := alignToFrameBoundary_rest q inside (by omega)
  rw [← split] at rounded
  constructor
  · intro right
    by_contra wrong
    obtain ⟨odd, middle⟩ := not_or.mp wrong
    have near := right.near
    rw [rounded, if_neg (by omega), distance, Nat.add_mul, split] at near
    omega
  · intro spared
    have nearer : 2 * distance (config.alignToFrameBoundary timestamp) timestamp ≤
        config.frameIntervalNs ∧
        distance (config.alignToFrameBoundary timestamp) timestamp ≤ rest ∧
        distance (config.alignToFrameBoundary timestamp) timestamp ≤ config.frameIntervalNs - rest ∧
        ∃ k, config.alignToFrameBoundary timestamp = k * config.frameIntervalNs ∧
          k * config.frameIntervalNs + (config.frameIntervalNs + 1) / 2 < 2 ^ 64 := by
      by_cases down : rest + (config.frameIntervalNs + 1) / 2 < config.frameIntervalNs
      · rw [if_pos down] at rounded
        have apart : distance (config.alignToFrameBoundary timestamp) timestamp = rest := by
          rw [distance, rounded, split]
          omega
        exact ⟨by omega, by omega, by omega, q, rounded, by omega⟩
      · rw [if_neg down] at rounded
        have next : (q + 1) * config.frameIntervalNs =
            q * config.frameIntervalNs + config.frameIntervalNs := Nat.succ_mul _ _
        have apart : distance (config.alignToFrameBoundary timestamp) timestamp =
            config.frameIntervalNs - rest := by
          rw [distance, rounded, next, split]
          omega
        exact ⟨by omega, by omega, by omega, q + 1, rounded, by omega⟩
    obtain ⟨near, lower, upper, k, boundary, room⟩ := nearer
    refine ⟨by omega, ?_, near, fun other => ?_, fun later ordered bound => ?_, ?_⟩
    · exact Dvd.intro_left k boundary.symm
    · have least := distance_le_of_ends (q := q) inside lower upper other
      rwa [← split] at least
    · exact alignToFrameBoundary_mono positive ordered (by omega)
    · rw [boundary]
      exact alignToFrameBoundary_boundary k (by omega) room

theorem nearest_frame_at_fifty : NearestFrame (.withFps 50) 10000000 :=
  (nearest_frame_iff (.withFps 50) (by decide) (by decide) 10000000 (by decide)).mpr (.inl (by decide))

/-- At 30 frames a second the frame at 0 is 16666666 nanoseconds away, the one gone to 16666667. -/
theorem nearest_frame_missed : ¬ NearestFrame (.withFps 30) 16666666 := by
  intro right
  have near := right.nearest 0
  revert near
  decide

end Roboflow.Alignment
