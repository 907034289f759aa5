import Roboflow.Library.FileTrees

/-! Files and empty directories taken out of a tree, one at a time. -/
namespace Library.FileTree

variable {Name Content : Type} [DecidableEq Name] {tree : FileTree Name Content}
  {path wanted : List Name} {name : Name}

theorem findNode_ne_none_iff {entries : List (List Name × FileNode Content)} :
    findNode entries path ≠ none ↔ ∃ node, (path, node) ∈ entries := by
  unfold findNode
  rw [Ne, Option.map_eq_none_iff, List.find?_eq_none]
  simp

/-- The names in a directory are those of what stands in it. -/
theorem mem_names : name ∈ tree.names path ↔ tree.lookup (path ++ [name]) ≠ none := by
  unfold names lookup
  rw [findNode_ne_none_iff, List.mem_dedup, List.mem_filterMap]
  constructor
  · rintro ⟨⟨place, node⟩, listed, named⟩
    dsimp only at named
    split at named
    · rename_i parent
      have whole : place = path ++ [name] := by
        rw [← parent]
        exact (List.dropLast_append_getLast? name (by simpa using named)).symm
      exact ⟨node, whole ▸ listed⟩
    · cases named
  · rintro ⟨node, listed⟩
    exact ⟨_, listed, by simp⟩

theorem nodup_names : (tree.names path).Nodup := List.nodup_dedup _

/-- Nothing stands below what is not there. -/
theorem lookup_below_none (missing : tree.lookup path = none) (below : path <+: wanted) :
    tree.lookup wanted = none := by
  by_contra found
  by_cases same : path = wanted
  · exact found (same ▸ missing)
  · rw [dir_above found below same] at missing
    cases missing

/-- Nothing stands in a file. -/
theorem eq_of_file {content : Content} (file : tree.lookup path = some (.file content))
    (found : tree.lookup wanted ≠ none) (below : path <+: wanted) : path = wanted := by
  by_contra other
  rw [dir_above found below other] at file
  cases file

theorem findNode_filter (entries : List (List Name × FileNode Content)) (path wanted : List Name) :
    findNode (entries.filter fun entry => entry.1 ≠ path) wanted =
      if wanted = path then none else findNode entries wanted := by
  unfold findNode
  rw [List.find?_filter]
  split
  · rename_i same
    simp [same]
  · rename_i different
    congr 2
    funext entry
    by_cases same : entry.1 = wanted
    · simp [same, different]
    · simp [same]

/-- A file or an empty directory taken out. The root stays, and so does a directory with something
in it. -/
def remove (tree : FileTree Name Content) (path : List Name) : FileTree Name Content :=
  if free : path ≠ [] ∧ tree.names path = [] then
    { entries := tree.entries.filter fun entry => entry.1 ≠ path
      rooted := by
        rw [findNode_filter, if_neg (Ne.symm free.1)]
        exact tree.rooted
      closed := by
        intro place inner found
        rw [findNode_filter] at found ⊢
        split at found
        · exact absurd rfl found
        · rw [if_neg]
          · exact tree.closed place inner found
          · rintro rfl
            have listed := mem_names.mpr found
            rw [free.2] at listed
            cases listed }
  else tree

theorem lookup_remove (other : path ≠ []) (free : tree.names path = []) (wanted : List Name) :
    (tree.remove path).lookup wanted = if wanted = path then none else tree.lookup wanted := by
  unfold remove
  rw [dif_pos ⟨other, free⟩]
  exact findNode_filter _ _ _

theorem ne_nil_of_file {content : Content} (file : tree.lookup path = some (.file content)) : path ≠ [] := by
  rintro rfl
  have root := tree.rooted
  unfold lookup at file
  rw [root] at file
  cases file

theorem names_of_file {content : Content} (file : tree.lookup path = some (.file content)) :
    tree.names path = [] := by
  rw [List.eq_nil_iff_forall_not_mem]
  intro name listed
  have same := eq_of_file file (mem_names.mp listed) (List.prefix_append _ _)
  simp at same

theorem lookup_remove_file {content : Content} (file : tree.lookup path = some (.file content))
    (wanted : List Name) :
    (tree.remove path).lookup wanted = if wanted = path then none else tree.lookup wanted :=
  lookup_remove (ne_nil_of_file file) (names_of_file file) wanted

omit [DecidableEq Name] in
/-- What stands below a directory stands below one of the names in it. -/
theorem below_cases (below : path <+: wanted) : wanted = path ∨ ∃ name, path ++ [name] <+: wanted := by
  obtain ⟨rest, rfl⟩ := below
  cases rest with
  | nil => exact .inl (List.append_nil _)
  | cons name rest => exact .inr ⟨name, rest, by simp⟩

/-- How deep a tree is. -/
def depth (tree : FileTree Name Content) : Nat := (tree.entries.map fun entry => entry.1.length).foldr max 0

theorem length_le_depth (found : tree.lookup path ≠ none) : path.length ≤ tree.depth := by
  obtain ⟨node, listed⟩ := findNode_ne_none_iff.mp found
  unfold depth
  generalize tree.entries = entries at listed
  induction entries with
  | nil => cases listed
  | cons entry rest ih =>
    rw [List.map_cons, List.foldr_cons]
    rcases List.mem_cons.mp listed with same | older
    · rw [← same]
      exact Nat.le_max_left _ _
    · exact (ih older).trans (Nat.le_max_right _ _)

end Library.FileTree
