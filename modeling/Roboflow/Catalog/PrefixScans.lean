import Roboflow.Catalog.SegmentCatalog
import Roboflow.Library.PrefixRanges
import Roboflow.Tikv.KeySpace

/-! The prefix scans of `catalog/pool.rs` and `tikv/client.rs`, on keys of any bytes. Each asks for the
keys from the prefix up to the prefix and one byte more: a zero in the pool, which lets in the prefix
alone, and `0xFF` in the client, which leaves out what goes on with that byte. -/
namespace Roboflow.Catalog
open Library

/-! ### The scans and what they are to return -/

/-- `TiKVPool::scan_prefix_values`. -/
def scanPrefixValues (store : Kv Bytes Bytes) (start : Bytes) (limit : Nat) : List Bytes :=
  (store.scan (fun key => start ≤ key && key < start ++ [0]) limit).map Prod.snd

/-- The first stored keys that start with the prefix, with their values. -/
def prefixed (store : Kv Bytes Bytes) (start : Bytes) (limit : Nat) : List (Bytes × Bytes) :=
  store.scan (fun key => start <+: key) limit

/-- The prefix is followed by `0xFF`. -/
def Topped (start key : Bytes) : Prop := start ++ [0xFF] <+: key

instance (start key : Bytes) : Decidable (Topped start key) :=
  inferInstanceAs (Decidable (_ <+: _))

/-- Nothing is asked for but the prefix itself, or nothing else is stored. -/
def BareEnough (store : Kv Bytes Bytes) (start : Bytes) (limit : Nat) : Prop :=
  limit ≤ (store.entries.filter fun entry => entry.1 = start).length ∨
    ∀ entry ∈ store.entries, start <+: entry.1 → entry.1 = start

/-- The keys that do not go on with `0xFF` are enough, or none does. -/
def UntoppedEnough (store : Kv Bytes Bytes) (start : Bytes) (limit : Nat) : Prop :=
  limit ≤ (store.entries.filter fun entry => start <+: entry.1 ∧ ¬Topped start entry.1).length ∨
    ∀ entry ∈ store.entries, ¬Topped start entry.1

/-- The three scans of a prefix return the first stored keys that start with it. -/
structure ScansExact (store : Kv Bytes Bytes) (start : Bytes) (limit : Nat) : Prop where
  keys : scanPrefix store start limit = (prefixed store start limit).map Prod.fst
  values : scanPrefixValues store start limit = (prefixed store start limit).map Prod.snd
  pairs : Tikv.scan store start limit = prefixed store start limit
  agree : scanPrefix store start limit = (Tikv.scan store start limit).map Prod.fst ∧
    scanPrefixValues store start limit = (Tikv.scan store start limit).map Prod.snd

/-! ### The two ranges -/

theorem pool_range (start key : Bytes) :
    (start ≤ key && key < start ++ [0]) = decide (key = start) := by
  rw [Bool.eq_iff_iff, Bool.and_eq_true, decide_eq_true_eq, decide_eq_true_eq, decide_eq_true_eq]
  exact mem_range_bot_iff fun _ => UInt8.zero_le

theorem byte_le_top (b : UInt8) : b ≤ 0xFF := by
  rw [UInt8.le_iff_toNat_le]
  exact Nat.le_of_lt_succ b.toNat_lt

theorem client_range (start key : Bytes) :
    Tikv.inScan start key = decide (start <+: key ∧ ¬Topped start key) := by
  rw [Tikv.inScan, Bool.eq_iff_iff, Bool.and_eq_true, decide_eq_true_eq, decide_eq_true_eq,
    decide_eq_true_eq]
  exact mem_range_greatest_iff byte_le_top

theorem pool_exact_iff (f : Bytes × Bytes → β) (store : Kv Bytes Bytes) (start : Bytes) (limit : Nat) :
    (store.scan (fun key => start ≤ key && key < start ++ [0]) limit).map f =
      (prefixed store start limit).map f ↔ BareEnough store start limit := by
  simp only [pool_range]
  rw [prefixed, scan_map_eq_iff]
  · simp [BareEnough]
  · intro key same
    simp_all
  · intro key key' less starts same
    have before := not_lt_of_prefix (of_decide_eq_true starts)
    rw [of_decide_eq_true same] at less
    exact absurd less before

theorem client_exact_iff (store : Kv Bytes Bytes) (start : Bytes) (limit : Nat) :
    Tikv.scan store start limit = prefixed store start limit ↔ UntoppedEnough store start limit := by
  have same := scan_map_eq_iff store id (fun key => start <+: key)
    (fun key => decide (start <+: key ∧ ¬Topped start key)) (by
      intro key early
      exact decide_eq_true (of_decide_eq_true early).1) (by
      intro key key' less starts early
      obtain ⟨starts', untopped⟩ := of_decide_eq_true early
      have starts := of_decide_eq_true starts
      exact decide_eq_true ⟨starts, untopped_first byte_le_top less starts' untopped⟩) limit
  rw [List.map_id, List.map_id] at same
  rw [Tikv.scan, prefixed, funext (client_range start), same, UntoppedEnough]
  apply or_congr_right
  refine forall₂_congr fun entry _ => ?_
  simp only [decide_eq_true_eq]
  constructor
  · intro untopped topped
    have starts := (List.prefix_append start [0xFF]).trans topped
    exact (untopped starts).2 topped
  · intro untopped starts
    exact ⟨starts, untopped⟩

/-! ### When the scans are exact -/

/-- What is enough for the pool is enough for the client. -/
theorem BareEnough.untoppedEnough {store : Kv Bytes Bytes} (enough : BareEnough store start limit) :
    UntoppedEnough store start limit := by
  have bare : ∀ key, key = start → start <+: key ∧ ¬Topped start key := by
    rintro key rfl
    refine ⟨List.prefix_rfl, fun topped => ?_⟩
    have shorter := topped.length_le
    simp at shorter
  rcases enough with few | alone
  · refine .inl (few.trans ?_)
    apply List.Sublist.length_le
    apply List.monotone_filter_right
    intro entry same
    rw [decide_eq_true_eq] at same ⊢
    exact bare _ same
  · refine .inr fun entry member topped => ?_
    have starts := (List.prefix_append start [0xFF]).trans topped
    exact (bare _ (alone entry member starts)).2 topped

/-- The scans return the first keys with the prefix exactly if the prefix itself is all that is
asked for or stored; the client's scan does so exactly if the keys that do not go on with `0xFF`
are. -/
theorem scans_exact_iff (store : Kv Bytes Bytes) (start : Bytes) (limit : Nat) :
    (ScansExact store start limit ↔ BareEnough store start limit) ∧
    (Tikv.scan store start limit = prefixed store start limit ↔ UntoppedEnough store start limit) := by
  have client := client_exact_iff store start limit
  refine ⟨⟨fun exact_ => ?_, fun enough => ?_⟩, client⟩
  · exact (pool_exact_iff Prod.fst store start limit).mp exact_.keys
  · have keys := (pool_exact_iff Prod.fst store start limit).mpr enough
    have values := (pool_exact_iff Prod.snd store start limit).mpr enough
    have pairs := client.mpr enough.untoppedEnough
    refine ⟨keys, values, pairs, ?_⟩
    rw [pairs]
    exact ⟨keys, values⟩

def twoKeys : Kv Bytes Bytes := (Kv.empty.put [1] [10]).put [1, 2] [20]

/-- Two keys start with the prefix, and the pool returns one. -/
theorem longer_key_missed : scanPrefix twoKeys [1] 10 = [[1]] ∧
    (prefixed twoKeys [1] 10).map Prod.fst = [[1], [1, 2]] ∧ ¬ScansExact twoKeys [1] 10 := by
  refine ⟨rfl, rfl, fun exact_ => ?_⟩
  have lengths := congrArg List.length exact_.keys
  revert lengths
  decide

end Roboflow.Catalog
