import Mathlib

/-! Stable sorting by a key that may repeat. Elements of one key keep their order, so a
sorted list is known from its groups of equal keys. Where a list is gathered from several
sources, the order in which they are visited is seen within a group only, and it is not
seen at all exactly when any two sources may be swapped. -/
namespace Library

variable {α β σ ι : Type} [LinearOrder ι]

/-- `slice::sort_by_key`. -/
def sortByKey (key : α → ι) (items : List α) : List α :=
  items.insertionSort fun first second => key first ≤ key second

/-- The elements of one key, in order. -/
def group (key : α → ι) (k : ι) (items : List α) : List α := items.filter fun item => key item = k

theorem perm_sortByKey (key : α → ι) (items : List α) : (sortByKey key items).Perm items :=
  List.perm_insertionSort _ _

theorem pairwise_sortByKey (key : α → ι) (items : List α) :
    (sortByKey key items).Pairwise fun first second => key first ≤ key second := by
  have total : Std.Total fun first second : α => key first ≤ key second :=
    ⟨fun first second => le_total (key first) (key second)⟩
  have transitive : IsTrans α fun first second => key first ≤ key second :=
    ⟨fun _ _ _ less more => le_trans less more⟩
  exact List.pairwise_insertionSort _ items

/-- With keys that do not repeat, the sorted keys increase. -/
theorem pairwise_lt_sortByKey {key : α → ι} {items : List α}
    (distinct : items.Pairwise fun first second => key first ≠ key second) :
    (sortByKey key items).Pairwise fun first second => key first < key second := by
  have apart : (sortByKey key items).Pairwise fun first second => key first ≠ key second :=
    ((perm_sortByKey key items).pairwise_iff Ne.symm).mpr distinct
  exact ((pairwise_sortByKey key items).and apart).imp fun both => lt_of_le_of_ne both.1 both.2

/-- Lists that increase in a key are the same when they have the same elements. -/
theorem eq_of_increasing (key : α → ι) {items others : List α}
    (increasing : items.Pairwise fun first second => key first < key second)
    (otherIncreasing : others.Pairwise fun first second => key first < key second)
    (same : ∀ item, item ∈ items ↔ item ∈ others) : items = others := by
  have nodup : ∀ {list : List α}, (list.Pairwise fun first second => key first < key second) → list.Nodup :=
    fun sorted => sorted.imp fun less equal => less.ne (congrArg key equal)
  have rearranged := (List.perm_ext_iff_of_nodup (nodup increasing) (nodup otherIncreasing)).mpr same
  exact rearranged.eq_of_pairwise (fun _ _ _ _ less more => absurd less more.asymm) increasing
    otherIncreasing

/-! ### Groups -/

/-- An element is inserted before the elements of its own key. -/
theorem group_orderedInsert (key : α → ι) (k : ι) (item : α) (items : List α) :
    group key k (items.orderedInsert (fun first second => key first ≤ key second) item) =
      group key k (item :: items) := by
  induction items with
  | nil => rfl
  | cons first rest ih =>
    rw [List.orderedInsert_cons]
    split
    · rfl
    · rename_i above
      unfold group at ih ⊢
      rw [List.filter_cons, ih]
      by_cases own : key item = k
      · have other : key first ≠ k := by
          rw [← own]
          exact (not_le.mp above).ne
        simp [own, other]
      · simp [own, List.filter_cons]

/-- The sort is stable. -/
theorem group_sortByKey (key : α → ι) (k : ι) (items : List α) :
    group key k (sortByKey key items) = group key k items := by
  induction items with
  | nil => rfl
  | cons item rest ih =>
    unfold sortByKey at ih ⊢
    rw [List.insertionSort_cons, group_orderedInsert]
    unfold group at ih ⊢
    rw [List.filter_cons, List.filter_cons, ih]

theorem mem_of_group {key : α → ι} {item : α} {items others : List α}
    (same : ∀ k, group key k items = group key k others) (member : item ∈ items) :
    item ∈ others := by
  have grouped : item ∈ group key (key item) others := by
    rw [← same]
    exact List.mem_filter.mpr ⟨member, by simp⟩
  exact (List.mem_filter.mp grouped).1

/-- Sorted lists of the same groups are the same. -/
theorem eq_of_groups {key : α → ι} {items others : List α}
    (sorted : items.Pairwise fun first second => key first ≤ key second)
    (otherSorted : others.Pairwise fun first second => key first ≤ key second)
    (same : ∀ k, group key k items = group key k others) : items = others := by
  induction items generalizing others with
  | nil =>
    cases others with
    | nil => rfl
    | cons other _ => exact absurd (mem_of_group (fun k => (same k).symm) List.mem_cons_self) List.not_mem_nil
  | cons item rest ih =>
    cases others with
    | nil => exact absurd (mem_of_group same List.mem_cons_self) List.not_mem_nil
    | cons other later =>
      obtain ⟨least, rest_sorted⟩ := List.pairwise_cons.mp sorted
      obtain ⟨otherLeast, later_sorted⟩ := List.pairwise_cons.mp otherSorted
      have below : key other ≤ key item := by
        rcases List.mem_cons.mp (mem_of_group same List.mem_cons_self) with rfl | member
        · exact le_rfl
        · exact otherLeast item member
      have above : key item ≤ key other := by
        rcases List.mem_cons.mp (mem_of_group (fun k => (same k).symm) List.mem_cons_self) with
          rfl | member
        · exact le_rfl
        · exact least other member
      have equal : key item = key other := le_antisymm above below
      have heads : item = other := by
        have own := same (key item)
        simp only [group, List.filter_cons, equal, decide_true, if_true] at own
        exact (List.cons.inj own).1
      subst heads
      congr 1
      refine ih rest_sorted later_sorted fun k => ?_
      have grouped := same k
      simp only [group, List.filter_cons] at grouped ⊢
      split at grouped
      · exact (List.cons.inj grouped).2
      · exact grouped

/-- Elements may be left out before or after the sort. -/
theorem filter_sortByKey (key : α → ι) (keep : α → Bool) (items : List α) :
    (sortByKey key items).filter keep = sortByKey key (items.filter keep) := by
  refine eq_of_groups ((pairwise_sortByKey key items).filter _) (pairwise_sortByKey _ _) fun k => ?_
  have later : group key k ((sortByKey key items).filter keep) =
      (group key k (sortByKey key items)).filter keep := List.filter_comm _ _ _
  have earlier : group key k (items.filter keep) = (group key k items).filter keep :=
    List.filter_comm _ _ _
  rw [later, group_sortByKey, group_sortByKey, earlier]

/-! ### What is seen of a sorted list -/

/-- An element with its key. -/
def keyed (key : α → ι) (f : α → β) (item : α) : ι × β := (key item, f item)

omit [LinearOrder ι] in
theorem map_keyed (key : α → ι) (f : α → β) (items : List α) :
    items.map (keyed key f) = (items.map key).zip (items.map f) := by
  rw [List.zip_map']
  rfl

theorem sortByKey_map_keyed (key : α → ι) (f : α → β) (items : List α) :
    sortByKey Prod.fst (items.map (keyed key f)) = (sortByKey key items).map (keyed key f) :=
  (List.map_insertionSort _ _ (keyed key f) items fun _ _ _ _ => Iff.rfl).symm

theorem group_map_keyed (key : α → ι) (f : α → β) (k : ι) (items : List α) :
    group Prod.fst k (items.map (keyed key f)) = ((group key k items).map f).map (Prod.mk k) := by
  unfold group
  rw [List.filter_map, List.map_map]
  refine List.map_congr_left fun item member => ?_
  have own : key item = k := of_decide_eq_true (List.mem_filter.mp member).2
  exact congrArg (·, f item) own

/-- Only the groups are seen in a sorted list. -/
theorem map_sortByKey_eq_iff {key : α → ι} {f : α → β} {items others : List α}
    (keys : (items.map key).Perm (others.map key)) :
    (sortByKey key items).map f = (sortByKey key others).map f ↔
      ∀ k, (group key k items).map f = (group key k others).map f := by
  constructor
  · intro same k
    have listed : (sortByKey key items).map key = (sortByKey key others).map key := by
      have rearranged := (((perm_sortByKey key items).map key).trans keys).trans
        ((perm_sortByKey key others).map key).symm
      refine rearranged.eq_of_pairwise (fun _ _ _ _ => le_antisymm) ?_ ?_
      · exact List.pairwise_map.mpr (pairwise_sortByKey key items)
      · exact List.pairwise_map.mpr (pairwise_sortByKey key others)
    have sorted : sortByKey Prod.fst (items.map (keyed key f)) =
        sortByKey Prod.fst (others.map (keyed key f)) := by
      rw [sortByKey_map_keyed, sortByKey_map_keyed, map_keyed, map_keyed, listed, same]
    have grouped := congrArg (group Prod.fst k) sorted
    rw [group_sortByKey, group_sortByKey, group_map_keyed, group_map_keyed] at grouped
    exact List.map_injective_iff.mpr (Prod.mk_right_injective k) grouped
  · intro same
    have sorted : sortByKey Prod.fst (items.map (keyed key f)) =
        sortByKey Prod.fst (others.map (keyed key f)) := by
      refine eq_of_groups (pairwise_sortByKey _ _) (pairwise_sortByKey _ _) fun k => ?_
      rw [group_sortByKey, group_sortByKey, group_map_keyed, group_map_keyed, same]
    rw [sortByKey_map_keyed, sortByKey_map_keyed] at sorted
    have shown := congrArg (List.map Prod.snd) sorted
    rwa [List.map_map, List.map_map] at shown

/-! ### Sources visited in any order -/

theorem flatMap_eq_of_perm {gather : σ → List β} {order other : List σ}
    (swaps : ∀ first ∈ order, ∀ second ∈ order,
      gather first ++ gather second = gather second ++ gather first)
    (rearranged : order.Perm other) : order.flatMap gather = other.flatMap gather := by
  induction rearranged with
  | nil => rfl
  | cons source _ ih =>
    rw [List.flatMap_cons, List.flatMap_cons, ih]
    intro first inRest second alsoInRest
    exact swaps first (List.mem_cons_of_mem _ inRest) second (List.mem_cons_of_mem _ alsoInRest)
  | swap first second rest =>
    simp only [List.flatMap_cons, ← List.append_assoc]
    rw [swaps second List.mem_cons_self first (List.mem_cons_of_mem _ List.mem_cons_self)]
  | trans before _ ih later =>
    rw [ih swaps]
    refine later fun first member second alsoMember => ?_
    exact swaps first (before.mem_iff.mpr member) second (before.mem_iff.mpr alsoMember)

/-- A list gathered from several sources is the same in every order of the sources exactly
when what two sources give may be swapped. -/
theorem flatMap_same_iff (gather : σ → List β) (sources : List σ) :
    (∀ order other : List σ, order.Perm sources → other.Perm sources →
        order.flatMap gather = other.flatMap gather) ↔
      ∀ first ∈ sources, ∀ second ∈ sources,
        gather first ++ gather second = gather second ++ gather first := by
  constructor
  · intro same first member second alsoMember
    obtain ⟨before, after, rfl⟩ := List.append_of_mem member
    have moved : (first :: (before ++ after)).Perm (before ++ first :: after) :=
      List.perm_middle.symm
    rcases List.mem_cons.mp (moved.mem_iff.mpr alsoMember) with rfl | elsewhere
    · rfl
    obtain ⟨left, right, split⟩ := List.append_of_mem elsewhere
    rw [split] at moved
    have front : (first :: second :: (left ++ right)).Perm (before ++ first :: after) :=
      (List.perm_middle.symm.cons first).trans moved
    have swapped := same _ _ front ((List.Perm.swap first second _).trans front)
    simp only [List.flatMap_cons, ← List.append_assoc] at swapped
    exact List.append_cancel_right swapped
  · intro swaps order other listed otherListed
    refine flatMap_eq_of_perm (fun first member second alsoMember => ?_)
      (listed.trans otherListed.symm)
    exact swaps first (listed.mem_iff.mp member) second (listed.mem_iff.mp alsoMember)

end Library
