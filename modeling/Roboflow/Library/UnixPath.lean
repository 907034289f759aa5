import Mathlib

/-! Paths of a Unix file system as a standard library reads them: a text is cut at
its slashes into components, empty segments and inner dots are dropped, and paths
are compared, joined and shortened by their components. -/
namespace Library

inductive PathComponent where
  | rootDir
  | curDir
  | parentDir
  | normal (name : List Char)
  deriving DecidableEq

namespace UnixPath
open PathComponent

/-- What one segment of a path contributes. -/
def ofSegment (segment : List Char) : Option PathComponent :=
  if segment = [] ∨ segment = ['.'] then none
  else if segment = ['.', '.'] then some parentDir
  else some (normal segment)

/-- The components of a text that follows a slash. -/
def parts (text : List Char) : List PathComponent := (text.splitOn '/').filterMap ofSegment

/-- A leading slash is the root; a leading dot is kept, every other one dropped. -/
def components (text : List Char) : List PathComponent :=
  if text.head? = some '/' then rootDir :: parts text
  else if (text.splitOn '/').head? = some ['.'] then curDir :: parts text
  else parts text

/-- An absolute path replaces what it is joined to. -/
def join (base path : List PathComponent) : List PathComponent :=
  if path.head? = some rootDir ∨ base = [] then path else base ++ path.filter (· ≠ curDir)

/-- A text joined to a text. A separator is put between them where there is none. -/
def push (base more : List Char) : List Char :=
  if more.head? = some '/' then more
  else if base = [] ∨ base.getLast? = some '/' then base ++ more
  else base ++ '/' :: more

/-- The last component, if it is a name. -/
def fileName (path : List PathComponent) : Option (List Char) :=
  match path.getLast? with
  | some (normal name) => some name
  | _ => none

/-- The path without its last component, if that is not the root. -/
def parent (path : List PathComponent) : Option (List PathComponent) :=
  match path.getLast? with
  | none | some rootDir => none
  | some _ => some path.dropLast

/-! ### Cutting at slashes -/

theorem splitOn_slash (text : List Char) : ('/' :: text).splitOn '/' = [] :: text.splitOn '/' := by
  simp [List.splitOn_cons_eq_if_modifyHead]

/-- A piece of a text that was cut has no separator in it. -/
theorem free_of_mem_splitOn {text piece : List Char} {separator : Char}
    (member : piece ∈ text.splitOn separator) :
    separator ∉ piece := by
  induction text generalizing piece with
  | nil =>
    rw [List.splitOn_nil, List.mem_singleton] at member
    rw [member]
    exact List.not_mem_nil
  | cons c text ih =>
    rw [List.splitOn_cons_eq_if_modifyHead] at member
    split at member
    · rcases List.mem_cons.mp member with rfl | later
      · exact List.not_mem_nil
      · exact ih later
    · rename_i other
      cases pieces : text.splitOn separator with
      | nil => exact absurd pieces (List.splitOn_ne_nil _ _)
      | cons first rest =>
        rw [pieces] at member ih
        rcases List.mem_cons.mp member with rfl | later
        · have free := ih List.mem_cons_self
          rw [List.mem_cons, not_or]
          refine ⟨fun same => other ?_, free⟩
          rw [same, beq_self_eq_true]
        · exact ih (List.mem_cons_of_mem _ later)

/-- Text without a slash is appended to the last segment. -/
theorem splitOn_append (text : List Char) :
    ∃ first last, text.splitOn '/' = first ++ [last] ∧
      ∀ more, '/' ∉ more → (text ++ more).splitOn '/' = first ++ [last ++ more] := by
  induction text with
  | nil => exact ⟨[], [], rfl, fun more free => List.splitOn_eq_singleton free⟩
  | cons c text ih =>
    obtain ⟨first, last, split, appended⟩ := ih
    by_cases slash : c = '/'
    · subst slash
      refine ⟨[] :: first, last, ?_, ?_⟩
      · rw [splitOn_slash, split, List.cons_append]
      · intro more free
        rw [List.cons_append, splitOn_slash, appended more free, List.cons_append]
    · have step : ∀ rest : List Char,
          (c :: rest).splitOn '/' = (rest.splitOn '/').modifyHead (List.cons c) := by
        intro rest
        simp [List.splitOn_cons_eq_if_modifyHead, slash]
      cases first with
      | nil =>
        refine ⟨[], c :: last, ?_, ?_⟩
        · rw [step, split]
          rfl
        · intro more free
          rw [List.cons_append, step, appended more free]
          rfl
      | cons head first =>
        refine ⟨(c :: head) :: first, last, ?_, ?_⟩
        · rw [step, split]
          rfl
        · intro more free
          rw [List.cons_append, step, appended more free]
          rfl

@[simp] theorem parts_slash (text : List Char) : parts ('/' :: text) = parts text := by
  simp [parts, splitOn_slash, ofSegment]

theorem components_slash (text : List Char) : components ('/' :: text) = rootDir :: parts text := by
  simp [components]

theorem curDir_not_mem_parts (text : List Char) : curDir ∉ parts text := by
  intro member
  obtain ⟨segment, -, same⟩ := List.mem_filterMap.mp member
  unfold ofSegment at same
  split at same
  · cases same
  · split at same <;> cases same

theorem rootDir_not_mem_parts (text : List Char) : rootDir ∉ parts text := by
  intro member
  obtain ⟨segment, -, same⟩ := List.mem_filterMap.mp member
  unfold ofSegment at same
  split at same
  · cases same
  · split at same <;> cases same

/-- Below a directory, a path that does not begin with a slash adds its parts. -/
theorem join_parts {base : List PathComponent} {text : List Char} (nonempty : base ≠ [])
    (relative : text.head? ≠ some '/') : join base (components text) = base ++ parts text := by
  have kept : (parts text).filter (· ≠ curDir) = parts text := by
    rw [List.filter_eq_self]
    intro component member
    have other : component ≠ curDir := fun same => curDir_not_mem_parts text (same ▸ member)
    simpa using other
  have head : (components text).head? ≠ some rootDir := by
    unfold components
    rw [if_neg relative]
    split
    · simp
    · intro first
      exact rootDir_not_mem_parts text (List.mem_of_mem_head? first)
  unfold join
  rw [if_neg (by simp [head, nonempty])]
  unfold components
  rw [if_neg relative]
  split
  · rw [List.filter_cons_of_neg (by simp), kept]
  · rw [kept]

theorem parts_append_slash (text more : List Char) :
    parts (text ++ '/' :: more) = parts text ++ parts more := by
  rw [parts, List.splitOn_append_cons_self, List.filterMap_append]
  rfl

theorem parts_name {text : List Char} (slashFree : '/' ∉ text) (long : 2 < text.length) :
    parts text = [.normal text] := by
  have other : ∀ dots : List Char, dots.length ≤ 2 → text ≠ dots := by
    rintro dots short rfl
    omega
  rw [parts, List.splitOn_eq_singleton slashFree]
  simp [ofSegment, other [] (by simp), other ['.'] (by simp), other ['.', '.'] (by simp)]

theorem components_name {text : List Char} (slashFree : '/' ∉ text) (long : 2 < text.length) :
    components text = [.normal text] := by
  have head : text.head? ≠ some '/' := fun first => slashFree (List.mem_of_head? first)
  have other : text ≠ ['.'] := by
    rintro rfl
    simp at long
  rw [components, if_neg head, List.splitOn_eq_singleton slashFree, if_neg (by simpa using other),
    parts_name slashFree long]

theorem components_append_slash {text : List Char} (some_ : text ≠ []) (more : List Char) :
    components (text ++ '/' :: more) = components text ++ parts more := by
  have cut : (text ++ '/' :: more).splitOn '/' = text.splitOn '/' ++ more.splitOn '/' :=
    List.splitOn_append_cons_self ..
  have segment : (text.splitOn '/' ++ more.splitOn '/').head? = (text.splitOn '/').head? :=
    List.head?_append_of_ne_nil _ (List.splitOn_ne_nil _ _)
  have start : (text ++ '/' :: more).head? = text.head? := List.head?_append_of_ne_nil _ some_
  unfold components
  rw [start, cut, segment, parts_append_slash]
  split
  · rw [List.cons_append]
  · split
    · rw [List.cons_append]
    · rfl

theorem components_push {base more : List Char} (relative : more.head? ≠ some '/') :
    components (push base more) =
      if base = [] then components more else components base ++ parts more := by
  unfold push
  rw [if_neg relative]
  split
  · rename_i plain
    split
    · rename_i empty
      rw [empty, List.nil_append]
    · rename_i some_
      obtain ⟨start, last, rfl⟩ := List.eq_nil_or_concat base |>.resolve_left some_
      have slash : last = '/' := by simpa using plain.resolve_left some_
      subst slash
      by_cases root : start = []
      · subst root
        simp [components_slash, parts, ofSegment]
      · rw [List.concat_eq_append, List.append_assoc, List.singleton_append,
          components_append_slash root, components_append_slash root]
        simp [parts, ofSegment]
  · rename_i open_
    rw [if_neg fun empty => open_ (.inl empty),
      components_append_slash fun empty => open_ (.inl empty)]

/-- A name goes behind any path. -/
theorem components_push_name (base : List Char) {name : List Char} (slashFree : '/' ∉ name)
    (long : 2 < name.length) : components (push base name) = components base ++ [normal name] := by
  rw [components_push fun first => slashFree (List.mem_of_head? first)]
  split
  · rename_i empty
    rw [empty, components_name slashFree long]
    rfl
  · rw [parts_name slashFree long]

theorem push_ne_nil (base : List Char) {more : List Char} (some_ : more ≠ []) :
    push base more ≠ [] := by
  unfold push
  split
  · exact some_
  · split <;> simp [some_]

/-- Text with neither slash nor dot makes the last segment a name, or a longer one. -/
theorem parts_append (text : List Char) {more : List Char} (slash : '/' ∉ more) (dot : '.' ∉ more)
    (nonempty : more ≠ []) :
    ∃ start last, parts text = start ++ (ofSegment last).toList ∧
      parts (text ++ more) = start ++ [normal (last ++ more)] := by
  obtain ⟨first, last, split, appended⟩ := splitOn_append text
  have named : ofSegment (last ++ more) = some (normal (last ++ more)) := by
    obtain ⟨c, tail, rfl⟩ := List.exists_cons_of_ne_nil nonempty
    have other : c ≠ '.' := fun same => dot (same ▸ List.mem_cons_self)
    have notDots : ∀ dots : List Char, (∀ d ∈ dots, d = '.') → last ++ c :: tail ≠ dots := by
      intro dots all same
      exact other (all c (same ▸ by simp))
    unfold ofSegment
    rw [if_neg (not_or.mpr ⟨notDots [] (by simp), notDots ['.'] (by simp)⟩),
      if_neg (notDots ['.', '.'] (by simp))]
  refine ⟨first.filterMap ofSegment, last, ?_, ?_⟩
  · rw [parts, split, List.filterMap_append]
    cases kept : ofSegment last <;> simp [kept]
  · rw [parts, appended more slash, List.filterMap_append]
    simp [named]

/-- The characters in the names of a path. -/
def size : PathComponent → Nat
  | normal name => name.length
  | _ => 0

theorem parts_longer (text : List Char) {more : List Char} (slash : '/' ∉ more) (dot : '.' ∉ more)
    (nonempty : more ≠ []) :
    ((parts text).map size).sum < ((parts (text ++ more)).map size).sum := by
  obtain ⟨start, last, short, long⟩ := parts_append text slash dot nonempty
  have some : 0 < more.length := List.length_pos_of_ne_nil nonempty
  have small : ((ofSegment last).toList.map size).sum ≤ last.length := by
    unfold ofSegment
    split
    · simp
    · split <;> simp [size]
  rw [short, long]
  simp only [List.map_append, List.sum_append, List.map_cons, List.map_nil, List.sum_cons,
    List.sum_nil, size, List.length_append]
  omega

end UnixPath

end Library
