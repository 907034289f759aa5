import Mathlib

/-! Trees of directories and files. Everything in a tree stands in a directory, and making the missing
directories of a path changes nothing else. -/
namespace Library

inductive FileNode (Content : Type) where
  | dir
  | file (content : Content)
  deriving DecidableEq

variable {Name Content : Type} [DecidableEq Name]

/-- What the first entry of a path says. -/
def findNode (entries : List (List Name × FileNode Content)) (path : List Name) : Option (FileNode Content) :=
  (entries.find? fun entry => entry.1 = path).map Prod.snd

theorem findNode_cons (path wanted : List Name) (node : FileNode Content)
    (entries : List (List Name × FileNode Content)) :
    findNode ((path, node) :: entries) wanted =
      if wanted = path then some node else findNode entries wanted := by
  unfold findNode
  rw [List.find?_cons]
  by_cases same : wanted = path
  · rw [if_pos same, same]
    simp
  · rw [if_neg same]
    simp [Ne.symm same]

/-- The empty path is a directory, and everything else stands in one. -/
structure FileTree (Name Content : Type) [DecidableEq Name] where
  entries : List (List Name × FileNode Content)
  rooted : findNode entries [] = some .dir
  closed : ∀ path name, findNode entries (path ++ [name]) ≠ none → findNode entries path = some .dir

namespace FileTree

theorem findNode_root (path : List Name) : findNode [([], (FileNode.dir : FileNode Content))] path =
    if path = [] then some .dir else none :=
  findNode_cons _ _ _ _

/-- Nothing but the root. -/
def empty : FileTree Name Content where
  entries := [([], .dir)]
  rooted := findNode_root []
  closed := by
    intro path name found
    rw [findNode_root, if_neg (by simp)] at found
    exact absurd rfl found

def lookup (tree : FileTree Name Content) (path : List Name) : Option (FileNode Content) :=
  findNode tree.entries path

theorem lookup_empty (path : List Name) :
    (empty : FileTree Name Content).lookup path = if path = [] then some .dir else none :=
  findNode_root path

/-- The names in a directory. -/
def names (tree : FileTree Name Content) (path : List Name) : List Name :=
  (tree.entries.filterMap fun entry =>
    if entry.1.dropLast = path then entry.1.getLast? else none).dedup

/-- A directory is there. -/
def Ready (tree : FileTree Name Content) (path : List Name) : Prop := tree.lookup path = some .dir

instance (tree : FileTree Name Content) (path : List Name) : Decidable (tree.Ready path) :=
  match found : tree.lookup path with
  | some .dir => .isTrue found
  | some (.file _) => .isFalse (by rw [Ready, found]; simp)
  | none => .isFalse (by rw [Ready, found]; simp)

/-- Something put in a directory where no directory stands; elsewhere nothing can be put. -/
def put (tree : FileTree Name Content) (path : List Name) (name : Name) (node : FileNode Content) :
    FileTree Name Content :=
  if free : tree.Ready path ∧ ¬tree.Ready (path ++ [name]) then
    { entries := (path ++ [name], node) :: tree.entries
      rooted := by
        rw [findNode_cons, if_neg (by simp)]
        exact tree.rooted
      closed := by
        intro place inner found
        have above (inside : tree.lookup place = some .dir) :
            findNode ((path ++ [name], node) :: tree.entries) place = some .dir := by
          rw [findNode_cons, if_neg]
          · exact inside
          · rintro rfl
            exact free.2 inside
        rw [findNode_cons] at found
        split at found
        · rename_i same
          rw [(List.append_inj' same rfl).1]
          rw [(List.append_inj' same rfl).1] at above
          exact above free.1
        · exact above (tree.closed place inner found) }
  else tree

variable {tree after : FileTree Name Content} {path whole : List Name} {name : Name}

theorem lookup_put (parent : tree.Ready path) (free : ¬tree.Ready (path ++ [name]))
    (node : FileNode Content) (place : List Name) : (tree.put path name node).lookup place =
      if place = path ++ [name] then some node else tree.lookup place := by
  unfold put
  rw [dif_pos ⟨parent, free⟩]
  exact findNode_cons _ _ _ _

/-- Above anything there are directories. -/
theorem dir_above {below : List Name} (found : tree.lookup path ≠ none) (above : below <+: path)
    (other : below ≠ path) : tree.lookup below = some .dir := by
  induction path using List.reverseRecOn with
  | nil => exact absurd (List.prefix_nil.mp above) other
  | append_singleton path name ih =>
    have parent : tree.lookup path = some .dir := tree.closed path name found
    rcases List.prefix_concat_iff.mp above with same | inside
    · exact absurd same other
    · by_cases last : below = path
      · rw [last]
        exact parent
      · exact ih (by rw [parent]; exact Option.some_ne_none _) inside last

/-! ### Missing directories -/

/-- The missing directories of a path are there, and nothing else has changed. -/
def Made (before after : FileTree Name Content) (path : List Name) : Prop :=
  ∀ place, after.lookup place =
    if place <+: path ∧ before.lookup place = none then some .dir else before.lookup place

/-- No file stands on the way. -/
def NoFile (tree : FileTree Name Content) (path : List Name) : Prop :=
  ∀ place, place <+: path → ∀ content, tree.lookup place ≠ some (.file content)

/-- The missing directories made one after the other, below one that is there. -/
def makeDirs (tree : FileTree Name Content) (base : List Name) :
    List Name → Except (List Name) (FileTree Name Content)
  | [] => .ok tree
  | name :: rest =>
    match tree.lookup (base ++ [name]) with
    | some .dir => makeDirs tree (base ++ [name]) rest
    | some (.file _) => .error (base ++ [name])
    | none => makeDirs (tree.put base name .dir) (base ++ [name]) rest

theorem made_self (ready : tree.Ready path) : Made tree tree path ∧ tree.NoFile path := by
  have dirs {place : List Name} (above : place <+: path) : tree.lookup place = some .dir := by
    by_cases same : place = path
    · rw [same]
      exact ready
    · exact dir_above (by rw [ready]; exact Option.some_ne_none _) above same
  constructor
  · intro place
    split
    · rename_i missing
      rw [dirs missing.1] at missing
      exact absurd missing.2 (Option.some_ne_none _)
    · rfl
  · intro place above content file
    rw [dirs above] at file
    cases file

/-- Every directory of the path is made if no file stands on the way, and else none. -/
theorem makeDirs_spec {base : List Name} (parent : tree.Ready base) (rest : List Name) :
    match makeDirs tree base rest with
    | .ok after => Made tree after (base ++ rest) ∧ tree.NoFile (base ++ rest)
    | .error _ => ¬tree.NoFile (base ++ rest) := by
  induction rest generalizing tree base with
  | nil =>
    rw [List.append_nil]
    exact made_self parent
  | cons name rest ih =>
    have whole : base ++ name :: rest = (base ++ [name]) ++ rest := by simp
    have here : base ++ [name] <+: (base ++ [name]) ++ rest := List.prefix_append _ _
    rw [whole]
    unfold makeDirs
    cases found : tree.lookup (base ++ [name]) with
    | some node =>
      cases node with
      | dir => exact ih found
      | file content => exact fun clear => clear _ here content found
    | none =>
      have stored := lookup_put parent (by rw [Ready, found]; simp) (FileNode.dir : FileNode Content)
      have parent' : (tree.put base name .dir).lookup (base ++ [name]) = some .dir := by
        rw [stored, if_pos rfl]
      have clear_iff : (tree.put base name .dir).NoFile ((base ++ [name]) ++ rest) ↔
          tree.NoFile ((base ++ [name]) ++ rest) := by
        apply forall_congr'
        intro place
        rw [stored]
        split
        · rename_i same
          rw [same, found]
          simp
        · exact Iff.rfl
      have later := ih parent'
      dsimp only
      cases result : makeDirs (tree.put base name .dir) (base ++ [name]) rest with
      | error blocked =>
        rw [result] at later
        exact fun clear => later (clear_iff.mpr clear)
      | ok after =>
        rw [result] at later
        refine ⟨fun place => ?_, clear_iff.mp later.2⟩
        rw [later.1 place, stored]
        by_cases same : place = base ++ [name]
        · rw [same, if_pos rfl, found]
          simp
        · rw [if_neg same]

/-- What was made is there. -/
theorem Made.ready (made : Made tree after path) (clear : tree.NoFile path) : after.Ready path := by
  unfold Ready
  rw [made path]
  cases found : tree.lookup path with
  | none => rw [if_pos ⟨List.prefix_refl _, rfl⟩]
  | some node =>
    rw [if_neg fun missing => Option.some_ne_none _ missing.2]
    cases node with
    | dir => rfl
    | file content => exact absurd found (clear _ (List.prefix_refl _) content)

end FileTree

end Library
