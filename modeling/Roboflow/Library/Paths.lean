import Roboflow.Library.Bytes

/-! Keys as paths: parts that do not contain the separator, each followed by it, and a last part that
may be any text. A path is read back part by part, and where one path begins another is decided
part by part too, so that nothing has to be said about the texts in between. -/
namespace Library
variable {α : Type*} (separator : α)

/-- The parts, each followed by the separator, and the last part. -/
def pathText : List (List α) → List α → List α
  | [], last => last
  | part :: parts, last => part ++ separator :: pathText parts last

def Separate (parts : List (List α)) : Prop := ∀ part ∈ parts, separator ∉ part

variable {separator} {part other : List α} {parts others : List (List α)}

theorem Separate.cons (separate : Separate separator (part :: parts)) :
    separator ∉ part ∧ Separate separator parts :=
  ⟨separate part List.mem_cons_self, fun p member => separate p (List.mem_cons_of_mem _ member)⟩

/-- A part ends where the first separator stands. -/
theorem part_prefix_iff (free : separator ∉ part) (otherFree : separator ∉ other) {rest tail : List α} :
    part ++ separator :: rest <+: other ++ separator :: tail ↔ part = other ∧ rest <+: tail := by
  induction part generalizing other with
  | nil =>
    cases other with
    | nil => simp [List.cons_prefix_cons]
    | cons x other =>
      rw [List.nil_append, List.cons_append, List.cons_prefix_cons]
      refine iff_of_false (fun same => otherFree ?_) (by simp)
      exact same.1 ▸ List.mem_cons_self
  | cons x part ih =>
    cases other with
    | nil =>
      rw [List.nil_append, List.cons_append, List.cons_prefix_cons]
      refine iff_of_false (fun same => free ?_) (by simp)
      exact same.1 ▸ List.mem_cons_self
    | cons y other =>
      rw [List.cons_append, List.cons_append, List.cons_prefix_cons, List.cons.injEq, and_assoc,
        ih (fun slash => free (List.mem_cons_of_mem _ slash))
          (fun slash => otherFree (List.mem_cons_of_mem _ slash))]

/-- A text without the separator begins a path where it begins the first part. -/
theorem start_prefix_iff (free : separator ∉ part) {rest : List α} :
    part <+: other ++ separator :: rest ↔ part <+: other := by
  induction part generalizing other with
  | nil => simp
  | cons x part ih =>
    have tailFree : separator ∉ part := fun slash => free (List.mem_cons_of_mem _ slash)
    cases other with
    | nil =>
      rw [List.nil_append, List.cons_prefix_cons]
      refine iff_of_false (fun same => free ?_) (by simp)
      exact same.1 ▸ List.mem_cons_self
    | cons y other => rw [List.cons_append, List.cons_prefix_cons, List.cons_prefix_cons, ih tailFree]

/-! ### Where a path begins another -/

variable (separator) in
/-- The path of `parts` and `start` begins the path of `others` and `last`, read part by part. Where
the second path has fewer parts, its last part has to go on as the first path does. -/
def Begins : List (List α) → List α → List (List α) → List α → Prop
  | [], start, [], last => start <+: last
  | [], start, other :: _, _ => start <+: other
  | part :: parts, start, other :: others, last => part = other ∧ Begins parts start others last
  | part :: parts, start, [], last => pathText separator (part :: parts) start <+: last

theorem pathText_prefix_iff {start last : List α} (free : separator ∉ start)
    (separate : Separate separator parts) (otherSeparate : Separate separator others) :
    pathText separator parts start <+: pathText separator others last ↔
      Begins separator parts start others last := by
  induction parts generalizing others with
  | nil =>
    cases others with
    | nil => rfl
    | cons other others => exact start_prefix_iff free
  | cons part parts ih =>
    cases others with
    | nil => rfl
    | cons other others =>
      rw [pathText, pathText, part_prefix_iff separate.cons.1 otherSeparate.cons.1,
        ih separate.cons.2 otherSeparate.cons.2, Begins]

/-! ### Reading a path back -/

variable [DecidableEq α]

theorem segments_part (free : separator ∉ part) (rest : List α) :
    segments separator (part ++ separator :: rest) = part :: segments separator rest := by
  induction part with
  | nil => simp [segments]
  | cons x part ih =>
    have different : x ≠ separator := fun same => free (same ▸ List.mem_cons_self)
    rw [List.cons_append, segments, if_neg different, ih fun slash => free (List.mem_cons_of_mem _ slash)]

/-- The segments of a path are its parts and the segments of its last part. -/
theorem segments_pathText (separate : Separate separator parts) (last : List α) :
    segments separator (pathText separator parts last) = parts ++ segments separator last := by
  induction parts with
  | nil => rfl
  | cons part parts ih =>
    rw [pathText, segments_part separate.cons.1, ih separate.cons.2, List.cons_append]

theorem segments_free {text : List α} (free : separator ∉ text) : segments separator text = [text] := by
  induction text with
  | nil => rfl
  | cons x rest ih =>
    have different : x ≠ separator := fun same => free (same ▸ List.mem_cons_self)
    rw [segments, if_neg different, ih fun slash => free (List.mem_cons_of_mem _ slash)]

end Library
