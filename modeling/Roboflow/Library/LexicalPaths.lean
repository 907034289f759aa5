import Roboflow.Library.UnixPath

/-! Paths normalized by their text alone. A dot goes, and a name goes together with the `..` that
follows it. The order does not matter, so every path has one normal form; a `..` that is left climbs
above the start. -/
namespace Library
namespace UnixPath
open PathComponent

/-- A dot goes, or a name with the `..` behind it. -/
inductive Simplifies : List PathComponent → List PathComponent → Prop where
  | dot (before after : List PathComponent) :
      Simplifies (before ++ curDir :: after) (before ++ after)
  | back (before : List PathComponent) (name : List Char) (after : List PathComponent) :
      Simplifies (before ++ normal name :: parentDir :: after) (before ++ after)

/-- The path simplified as far as it goes. -/
structure IsNormalForm (path result : List PathComponent) : Prop where
  reached : Relation.ReflTransGen Simplifies path result
  simple : ∀ shorter, ¬Simplifies result shorter

/-- One more component on the stack of those that are left, the last one on top. -/
def cancel : List PathComponent → PathComponent → List PathComponent
  | stack, curDir => stack
  | normal _ :: stack, parentDir => stack
  | stack, component => component :: stack

def normalForm (path : List PathComponent) : List PathComponent := (path.foldl cancel []).reverse

/-- What climbs above no start. -/
def Stays (path : List PathComponent) : Prop := parentDir ∉ normalForm path

instance (path : List PathComponent) : Decidable (Stays path) :=
  inferInstanceAs (Decidable (parentDir ∉ normalForm path))

@[simp] theorem cancel_curDir (stack : List PathComponent) : cancel stack curDir = stack := by
  cases stack with
  | nil => rfl
  | cons top rest => cases top <;> rfl

@[simp] theorem cancel_rootDir (stack : List PathComponent) : cancel stack rootDir = rootDir :: stack := by
  cases stack with
  | nil => rfl
  | cons top rest => cases top <;> rfl

@[simp] theorem cancel_name (stack : List PathComponent) (name : List Char) :
    cancel stack (normal name) = normal name :: stack := by
  cases stack with
  | nil => rfl
  | cons top rest => cases top <;> rfl

variable {path result shorter stack : List PathComponent}

/-! ### One normal form -/

theorem foldl_cancel_simplifies (step : Simplifies path shorter) (stack : List PathComponent) :
    path.foldl cancel stack = shorter.foldl cancel stack := by
  cases step with
  | dot before after =>
    rw [List.foldl_append, List.foldl_append, List.foldl_cons]
    rw [cancel_curDir]
  | back before name after =>
    rw [List.foldl_append, List.foldl_append, List.foldl_cons, List.foldl_cons, cancel_name]
    rfl

theorem normalForm_simplified (reached : Relation.ReflTransGen Simplifies path result) :
    normalForm path = normalForm result := by
  induction reached with
  | refl => rfl
  | tail _ step ih =>
    rw [ih]
    exact congrArg List.reverse (foldl_cancel_simplifies step [])

/-- The stack with the rest of the path simplifies to the stack at the end. -/
theorem simplifies_foldl_cancel (path stack : List PathComponent) :
    Relation.ReflTransGen Simplifies (stack.reverse ++ path) (path.foldl cancel stack).reverse := by
  induction path generalizing stack with
  | nil =>
    rw [List.append_nil]
    exact .refl
  | cons component path ih =>
    have kept : stack.reverse ++ component :: path = (component :: stack).reverse ++ path := by simp
    rw [List.foldl_cons]
    cases component with
    | curDir =>
      rw [cancel_curDir]
      exact .head (.dot _ _) (ih stack)
    | rootDir =>
      rw [cancel_rootDir, kept]
      exact ih _
    | normal name =>
      rw [cancel_name, kept]
      exact ih _
    | parentDir =>
      cases stack with
      | nil =>
        rw [kept]
        exact ih _
      | cons top rest =>
        cases top with
        | normal name =>
          have cut := Simplifies.back rest.reverse name path
          rw [List.reverse_cons, List.append_assoc, List.singleton_append]
          exact .head cut (ih rest)
        | rootDir =>
          rw [kept]
          exact ih _
        | curDir =>
          rw [kept]
          exact ih _
        | parentDir =>
          rw [kept]
          exact ih _

theorem normalForm_reached (path : List PathComponent) :
    Relation.ReflTransGen Simplifies path (normalForm path) :=
  simplifies_foldl_cancel path []

theorem Simplifies.sublist (step : Simplifies path shorter) : shorter.Sublist path := by
  cases step with
  | dot before after => exact (List.Sublist.refl _).append (List.sublist_cons_self _ _)
  | back before name after =>
    exact (List.Sublist.refl _).append ((List.sublist_cons_self _ _).trans (List.sublist_cons_self _ _))

theorem Simplifies.length_lt (step : Simplifies path shorter) : shorter.length < path.length := by
  cases step with
  | dot before after => simp
  | back before name after =>
    simp only [List.length_append, List.length_cons]
    omega

theorem sublist_of_reached (reached : Relation.ReflTransGen Simplifies path result) :
    result.Sublist path := by
  induction reached with
  | refl => exact List.Sublist.refl _
  | tail _ step ih => exact step.sublist.trans ih

theorem normalForm_sublist (path : List PathComponent) : (normalForm path).Sublist path :=
  sublist_of_reached (normalForm_reached path)

/-- What simplifies further is longer than its normal form. -/
theorem normalForm_simple (path : List PathComponent) : ∀ shorter, ¬Simplifies (normalForm path) shorter := by
  intro shorter step
  have same : normalForm shorter = normalForm path := by
    rw [normalForm_simplified (normalForm_reached path)]
    exact (normalForm_simplified (.single step)).symm
  have below := (normalForm_sublist shorter).length_le
  rw [same] at below
  exact absurd step.length_lt (Nat.not_lt.mpr below)

theorem normalForm_of_simple (simple : ∀ shorter, ¬Simplifies path shorter) : normalForm path = path := by
  rcases Relation.ReflTransGen.cases_head (normalForm_reached path) with same | ⟨next, step, _⟩
  · exact same.symm
  · exact absurd step (simple next)

/-- Every path has one normal form. -/
theorem isNormalForm_iff : IsNormalForm path result ↔ normalForm path = result := by
  constructor
  · intro form
    rw [normalForm_simplified form.reached, normalForm_of_simple form.simple]
  · rintro rfl
    exact ⟨normalForm_reached path, normalForm_simple path⟩

/-! ### What is left -/

theorem curDir_not_mem_normalForm (path : List PathComponent) : curDir ∉ normalForm path := by
  intro member
  obtain ⟨before, after, split⟩ := List.append_of_mem member
  have step := Simplifies.dot before after
  rw [← split] at step
  exact normalForm_simple path _ step

/-- The root stays below everything. -/
theorem normalForm_rootDir (path : List PathComponent) :
    normalForm (rootDir :: path) = rootDir :: normalForm path := by
  have step (stack : List PathComponent) (component : PathComponent) :
      cancel (stack ++ [rootDir]) component = cancel stack component ++ [rootDir] := by
    cases stack with
    | nil => cases component <;> rfl
    | cons top rest => cases top <;> cases component <;> rfl
  have bottom (stack : List PathComponent) :
      path.foldl cancel (stack ++ [rootDir]) = path.foldl cancel stack ++ [rootDir] := by
    induction path generalizing stack with
    | nil => rfl
    | cons component path ih => rw [List.foldl_cons, step, ih, List.foldl_cons]
  have whole : normalForm (rootDir :: path) = (path.foldl cancel ([] ++ [rootDir])).reverse := rfl
  rw [whole, bottom, List.reverse_append]
  rfl

/-- A name at the end stays. -/
theorem normalForm_name (path : List PathComponent) (name : List Char) :
    normalForm (path ++ [normal name]) = normalForm path ++ [normal name] := by
  unfold normalForm
  rw [List.foldl_append, List.foldl_cons, List.foldl_nil, cancel_name, List.reverse_cons]

/-- Without a `..` only the dots go. -/
theorem normalForm_plain (plain : parentDir ∉ path) : normalForm path = path.filter (· ≠ curDir) := by
  have fold (stack : List PathComponent) :
      path.foldl cancel stack = (path.filter (· ≠ curDir)).reverse ++ stack := by
    induction path generalizing stack with
    | nil => rfl
    | cons component path ih =>
      rw [List.mem_cons, not_or] at plain
      rw [List.foldl_cons, ih plain.2]
      cases component with
      | parentDir => exact absurd rfl plain.1
      | curDir => simp
      | rootDir => simp
      | normal name => simp
  unfold normalForm
  rw [fold, List.append_nil, List.reverse_reverse]

/-- A `..` at the bottom is never cancelled. -/
theorem parentDir_mem_foldl_cancel (path : List PathComponent) (below : parentDir ∈ stack) :
    parentDir ∈ path.foldl cancel stack := by
  induction path generalizing stack with
  | nil => exact below
  | cons component path ih =>
    rw [List.foldl_cons]
    apply ih
    cases stack with
    | nil => cases below
    | cons top rest =>
      cases top <;> cases component <;> simp_all [cancel]

end UnixPath
end Library
