import Roboflow.Batch.SourceListing
import Roboflow.Library.LexicalPaths

/-! Which paths a local storage resolves, `LocalStorage::full_path` of `local.rs`. The path is normalized
in full, but of the root only the dots go, so a root with a `..` or with nothing but dots is above
every path. -/
namespace Roboflow.Storage
open Library UnixPath PathComponent Batch

/-- At the root or below it, both normalized. -/
def Below (root path : List PathComponent) : Prop :=
  ∃ base names, IsNormalForm root base ∧ path = base ++ names ∧ ∀ c ∈ names, ∃ name, c = normal name

/-- Exactly the paths at or below the root are resolved, each to its normal form. -/
def Confined (root : List PathComponent) : Prop :=
  ∀ path full, fullPath root path = .ok full ↔
    IsNormalForm (join root (components path)) full ∧ Below root full

/-- The root has no `..` and more than dots. -/
def Direct (root : List PathComponent) : Prop := parentDir ∉ root ∧ ∃ c ∈ root, c ≠ curDir

instance (root : List PathComponent) : Decidable (Direct root) :=
  inferInstanceAs (Decidable (_ ∧ _))

/-- The name of a file in a directory. -/
def PlainName (text : List Char) : Prop := ∃ name, components text = [normal name]

/-! ### The root in a path -/

variable {root path full : List PathComponent} {text : List Char}

theorem rootDir_not_mem_relative (relative : text.head? ≠ some '/') : rootDir ∉ components text := by
  unfold components
  rw [if_neg relative]
  split
  · simp [rootDir_not_mem_parts text]
  · exact rootDir_not_mem_parts text

/-- The root stands only at the start. -/
theorem components_rooted (text : List Char) : rootDir ∉ (components text).tail := by
  by_cases absolute : text.head? = some '/'
  · rw [components, if_pos absolute]
    exact rootDir_not_mem_parts text
  · exact fun member => rootDir_not_mem_relative absolute (List.mem_of_mem_tail member)

theorem join_rooted (rooted : rootDir ∉ root.tail) (text : List Char) :
    rootDir ∉ (join root (components text)).tail := by
  unfold join
  split
  · exact components_rooted text
  · rename_i below
    rw [not_or] at below
    have relative : text.head? ≠ some '/' := by
      intro absolute
      apply below.1
      rw [components, if_pos absolute]
      rfl
    rw [List.tail_append_of_ne_nil below.2, List.mem_append, not_or]
    exact ⟨rooted, fun member => rootDir_not_mem_relative relative (List.mem_of_mem_filter member)⟩

theorem chooseRoot_rooted (text : List Char) : rootDir ∉ (chooseRoot text).tail := by
  unfold chooseRoot
  split
  · unfold UnixPath.parent
    split
    · exact List.not_mem_nil
    · exact List.not_mem_nil
    · rw [Option.getD_some]
      intro member
      rw [List.tail_dropLast] at member
      exact components_rooted text (List.dropLast_subset _ member)
  · exact components_rooted text

/-! ### Normalizing -/

/-- The code keeps the stack of the normal form as long as no `..` is left. -/
theorem foldlM_normalizeStep_iff {path : List PathComponent} (stack : List PathComponent)
    (unrooted : rootDir ∉ path) (clean : parentDir ∉ stack ∧ curDir ∉ stack) :
    path.foldlM normalizeStep stack.reverse = .ok full ↔
      (path.foldl cancel stack).reverse = full ∧ parentDir ∉ full := by
  induction path generalizing stack with
  | nil =>
    simp only [List.foldlM_nil, List.foldl_nil, pure, Except.pure, Except.ok.injEq]
    constructor
    · rintro rfl
      exact ⟨rfl, by simpa using clean.1⟩
    · exact And.left
  | cons component path ih =>
    rw [List.mem_cons, not_or] at unrooted
    rw [List.foldlM_cons, List.foldl_cons]
    cases component with
    | rootDir => exact absurd rfl unrooted.1
    | curDir =>
      rw [cancel_curDir]
      exact ih _ unrooted.2 clean
    | normal name =>
      rw [cancel_name]
      have pushed : normalizeStep stack.reverse (.normal name) = .ok (normal name :: stack).reverse := by
        simp [normalizeStep]
      rw [pushed]
      exact ih _ unrooted.2 ⟨by simp [clean.1], by simp [clean.2]⟩
    | parentDir =>
      have left (below : parentDir ∈ cancel stack parentDir)
          (refused : ∃ error, normalizeStep stack.reverse .parentDir = .error error) :
          (normalizeStep stack.reverse .parentDir >>= fun next => path.foldlM normalizeStep next) =
            .ok full ↔ (path.foldl cancel (cancel stack parentDir)).reverse = full ∧ parentDir ∉ full := by
        obtain ⟨error, refused⟩ := refused
        rw [refused]
        refine iff_of_false (by simp [bind, Except.bind]) ?_
        rintro ⟨rfl, free⟩
        exact free (List.mem_reverse.mpr (parentDir_mem_foldl_cancel path below))
      cases stack with
      | nil => exact left List.mem_cons_self ⟨_, rfl⟩
      | cons top rest =>
        cases top with
        | rootDir =>
          refine left List.mem_cons_self
            ⟨.permissionDenied "Path traversal detected: '..' escape attempt".toList, ?_⟩
          simp [normalizeStep, UnixPath.parent]
        | curDir => exact absurd List.mem_cons_self clean.2
        | parentDir => exact absurd List.mem_cons_self clean.1
        | normal name =>
          have popped : normalizeStep (normal name :: rest).reverse .parentDir = .ok rest.reverse := by
            simp [normalizeStep, UnixPath.parent]
          rw [popped]
          simp only [List.mem_cons, not_or] at clean
          exact ih _ unrooted.2 ⟨clean.1.2, clean.2.2⟩

theorem normalize_iff (rooted : rootDir ∉ path.tail) :
    path.foldlM normalizeStep [] = .ok full ↔ normalForm path = full ∧ parentDir ∉ full := by
  cases path with
  | nil => exact foldlM_normalizeStep_iff [] rooted (by simp)
  | cons component path =>
    by_cases root : component = rootDir
    · rw [root]
      exact foldlM_normalizeStep_iff [rootDir] rooted (by simp)
    · have unrooted : rootDir ∉ component :: path := by
        rw [List.mem_cons, not_or]
        exact ⟨fun same => root same.symm, rooted⟩
      exact foldlM_normalizeStep_iff [] unrooted (by simp)

theorem normalizePath_iff {joined : List PathComponent} (rooted : rootDir ∉ joined.tail) :
    normalizePath joined root = .ok full ↔
      normalForm joined = full ∧ parentDir ∉ full ∧ normalizeRoot root <+: full := by
  rw [← and_assoc, ← normalize_iff rooted]
  unfold normalizePath
  cases joined.foldlM normalizeStep [] with
  | error error => simp [bind, Except.bind]
  | ok result =>
    simp only [bind, Except.bind, Except.ok.injEq]
    split
    · rename_i below
      rw [Except.ok.injEq]
      constructor
      · rintro rfl
        exact ⟨rfl, below⟩
      · exact And.left
    · rename_i outside
      refine iff_of_false (by simp) ?_
      rintro ⟨rfl, below⟩
      exact outside below

theorem fullPath_iff (rooted : rootDir ∉ root.tail) :
    fullPath root text = .ok full ↔
      normalForm (join root (components text)) = full ∧ parentDir ∉ full ∧ normalizeRoot root <+: full :=
  normalizePath_iff (join_rooted rooted text)

/-! ### Roots -/

theorem normalizeRoot_direct (direct : Direct root) : normalizeRoot root = normalForm root := by
  obtain ⟨plain, component, member, other⟩ := direct
  have some_ : root.filter (· ≠ curDir) ≠ [] := by
    apply List.ne_nil_of_mem (a := component)
    rw [List.mem_filter]
    exact ⟨member, by simpa using other⟩
  rw [normalForm_plain plain, normalizeRoot, if_neg some_]

theorem normalForm_direct_ne_nil (direct : Direct root) : normalForm root ≠ [] := by
  obtain ⟨plain, component, member, other⟩ := direct
  rw [normalForm_plain plain]
  apply List.ne_nil_of_mem (a := component)
  rw [List.mem_filter]
  exact ⟨member, by simpa using other⟩

/-- Below any other root nothing is resolved. -/
theorem direct_of_resolved (rooted : rootDir ∉ root.tail) (resolved : fullPath root text = .ok full) :
    Direct root := by
  obtain ⟨form, plain, below⟩ := (fullPath_iff rooted).mp resolved
  have dotless : curDir ∉ full := by
    rw [← form]
    exact curDir_not_mem_normalForm _
  unfold normalizeRoot at below
  dsimp only at below
  split at below
  · exact absurd (below.subset List.mem_cons_self) dotless
  · rename_i some_
    refine ⟨fun member => plain (below.subset ?_), ?_⟩
    · rw [List.mem_filter]
      exact ⟨member, rfl⟩
    · obtain ⟨component, member⟩ := List.exists_mem_of_ne_nil _ some_
      rw [List.mem_filter] at member
      exact ⟨component, member.1, by simpa using member.2⟩

/-- What follows a prefix of a normal form has no root. -/
theorem rootDir_not_mem_rest {base names : List PathComponent} (rooted : rootDir ∉ path.tail)
    (some_ : base ≠ []) (form : normalForm path = base ++ names) : rootDir ∉ names := by
  intro member
  have inside : rootDir ∈ (normalForm path).tail := by
    rw [form, List.tail_append_of_ne_nil some_]
    exact List.mem_append_right _ member
  cases path with
  | nil => cases inside
  | cons component path =>
    by_cases root : component = rootDir
    · rw [root, normalForm_rootDir] at inside
      exact rooted ((normalForm_sublist path).subset inside)
    · have found := (normalForm_sublist _).subset (List.mem_of_mem_tail inside)
      rcases List.mem_cons.mp found with same | later
      · exact root same.symm
      · exact rooted later

theorem below_iff {joined : List PathComponent} (direct : Direct root) (rooted : rootDir ∉ joined.tail)
    (form : normalForm joined = full) :
    Below root full ↔ parentDir ∉ full ∧ normalizeRoot root <+: full := by
  rw [normalizeRoot_direct direct]
  constructor
  · rintro ⟨base, names, base_form, rfl, named⟩
    obtain rfl := isNormalForm_iff.mp base_form
    refine ⟨fun member => ?_, List.prefix_append _ _⟩
    rcases List.mem_append.mp member with inside | inside
    · exact direct.1 ((normalForm_sublist root).subset inside)
    · obtain ⟨name, other⟩ := named _ inside
      cases other
  · rintro ⟨plain, names, rfl⟩
    refine ⟨_, names, isNormalForm_iff.mpr rfl, rfl, fun component member => ?_⟩
    have rootless := rootDir_not_mem_rest rooted (normalForm_direct_ne_nil direct) form
    have dotless := curDir_not_mem_normalForm joined
    rw [form] at dotless
    cases component with
    | rootDir => exact absurd member rootless
    | curDir => exact absurd (List.mem_append_right _ member) dotless
    | parentDir => exact absurd (List.mem_append_right _ member) plain
    | normal name => exact ⟨name, rfl⟩

theorem confined_of_direct (rooted : rootDir ∉ root.tail) (direct : Direct root) : Confined root := by
  intro path full
  rw [fullPath_iff rooted, isNormalForm_iff]
  exact and_congr_right fun form => (below_iff direct (join_rooted rooted path) form).symm

/-- Whatever is resolved lies below the root, whatever the root is. -/
theorem resolved_below (rooted : rootDir ∉ root.tail) (resolved : fullPath root text = .ok full) :
    IsNormalForm (join root (components text)) full ∧ Below root full :=
  (confined_of_direct rooted (direct_of_resolved rooted resolved) _ _).mp resolved

/-- The root itself is resolved only below a root without `..` that is more than dots. -/
theorem direct_of_confined (rooted : rootDir ∉ root.tail) (confined : Confined root) : Direct root := by
  have itself : join root (components []) = root := by
    unfold join
    split
    · rename_i start
      exact (start.resolve_left (by simp [components, parts, ofSegment])).symm
    · exact List.append_nil root
  have form : IsNormalForm (join root (components [])) (normalForm root) := by
    rw [itself]
    exact isNormalForm_iff.mpr rfl
  apply direct_of_resolved rooted ((confined [] (normalForm root)).mpr ⟨form, ?_⟩)
  exact ⟨_, [], isNormalForm_iff.mpr rfl, (List.append_nil _).symm, by simp⟩

/-- Plain names are resolved below a root that is more than dots, right below it. -/
theorem name_resolved (rooted : rootDir ∉ root.tail) (direct : Direct root) (plain : PlainName text) :
    ∃ full, fullPath root text = .ok full := by
  obtain ⟨name, named⟩ := plain
  have some_ : root ≠ [] := by
    obtain ⟨component, member, _⟩ := direct.2
    exact List.ne_nil_of_mem member
  have joined : join root (components text) = root ++ [normal name] := by
    rw [named, join, if_neg (by simp [some_])]
    rfl
  refine ⟨normalForm root ++ [normal name], (confined_of_direct rooted direct _ _).mpr ⟨?_, ?_⟩⟩
  · rw [joined]
    exact isNormalForm_iff.mpr (normalForm_name root name)
  · refine ⟨_, [normal name], isNormalForm_iff.mpr rfl, rfl, fun component member => ?_⟩
    exact ⟨name, List.mem_singleton.mp member⟩

/-- A root resolves exactly the paths below it, and the root made for a URL every plain name, exactly
if it has no `..` and is more than dots. -/
theorem confined_iff (root : List Char) {config : StorageConfig} {path : List Char}
    {chosen : List PathComponent}
    (created : createFromUrl config (.localPath path) = .ok (.localRoot chosen)) :
    (Confined (components root) ↔ Direct (components root)) ∧
      ((∀ name, PlainName name → ∃ full, fullPath chosen name = .ok full) ↔ Direct chosen) := by
  constructor
  · have rooted := components_rooted root
    exact ⟨direct_of_confined rooted, confined_of_direct rooted⟩
  · cases created
    have rooted := chooseRoot_rooted path
    constructor
    · intro resolved
      obtain ⟨full, resolved⟩ := resolved "x".toList ⟨_, rfl⟩
      exact direct_of_resolved rooted resolved
    · exact fun direct _ => name_resolved rooted direct

/-- A directory with a name, and the root of a file in it. -/
theorem directory_confined :
    Confined (components "./data".toList) ∧
      ∃ full, fullPath (chooseRoot "data/x.txt".toList) "x.txt".toList = .ok full := by
  have created : createFromUrl noCredentials (.localPath "data/x.txt".toList) =
      .ok (.localRoot (chooseRoot "data/x.txt".toList)) := rfl
  have both := confined_iff "./data".toList created
  constructor
  · apply both.1.mpr
    decide
  · apply both.2.mpr
    · decide
    · exact ⟨_, rfl⟩

/-- Below a dot nothing is found. -/
theorem dot_refuses_names : ¬∀ root, Stays (components root) → Confined (components root) := by
  intro confined
  have form : IsNormalForm (join (components ".".toList) (components "x.txt".toList))
      [normal "x.txt".toList] := isNormalForm_iff.mpr (by decide)
  have below : Below (components ".".toList) [normal "x.txt".toList] :=
    ⟨[], _, isNormalForm_iff.mpr (by decide), rfl, by simp⟩
  have resolved := (confined ".".toList (by decide) "x.txt".toList _).mpr ⟨form, below⟩
  have refused : fullPath (components ".".toList) "x.txt".toList =
      .error (.permissionDenied "Path traversal detected: access denied".toList) := by decide
  rw [refused] at resolved
  cases resolved

end Roboflow.Storage
