import Mathlib

/-! Finite acyclic relations and the orders that respect them. `depends a b` reads "`a`
comes after `b`". -/
namespace Library

open Relation (TransGen)

variable {α : Type} {depends : α → α → Prop}

def Acyclic (depends : α → α → Prop) : Prop := ∀ a, ¬ TransGen depends a a

theorem Acyclic.of_empty (none_ : ∀ a b, ¬ depends a b) : Acyclic depends := by
  intro a cycle
  obtain ⟨b, needed, -⟩ := TransGen.head'_iff.mp cycle
  exact none_ a b needed

/-- Some node of a nonempty list depends on none of it. -/
theorem Acyclic.exists_source (acyclic : Acyclic depends) {nodes : List α} (nonempty : nodes ≠ []) :
    ∃ node ∈ nodes, ∀ other ∈ nodes, ¬ depends node other := by
  let above (a b : { node // node ∈ nodes }) : Prop := TransGen depends b.1 a.1
  have : Finite { node // node ∈ nodes } := List.finite_toSet nodes
  have : IsTrans _ above := ⟨fun _ _ _ first second => TransGen.trans second first⟩
  have : Std.Irrefl above := ⟨fun a cycle => acyclic a.1 cycle⟩
  have wellFounded : WellFounded above := Finite.wellFounded_of_trans_of_irrefl above
  obtain ⟨first, member⟩ := List.exists_mem_of_ne_nil nodes nonempty
  obtain ⟨node, -, minimal⟩ := wellFounded.has_min Set.univ ⟨⟨first, member⟩, trivial⟩
  exact ⟨node.1, node.2, fun other listed needed =>
    minimal ⟨other, listed⟩ trivial (TransGen.single needed)⟩

/-- If every node that is not done waits for another such node, all are done. -/
theorem Acyclic.all_done (acyclic : Acyclic depends) {nodes : List α} {done : α → Prop}
    (stuck : ∀ node ∈ nodes, ¬ done node → ∃ other ∈ nodes, depends node other ∧ ¬ done other) :
    ∀ node ∈ nodes, done node := by
  classical
  by_contra left
  push Not at left
  obtain ⟨missing, listed, undone⟩ := left
  have nonempty : nodes.filter (fun node => ¬ done node) ≠ [] :=
    List.ne_nil_of_mem (List.mem_filter.mpr ⟨listed, decide_eq_true undone⟩)
  obtain ⟨source, member, free⟩ := acyclic.exists_source nonempty
  obtain ⟨known, open_⟩ := List.mem_filter.mp member
  obtain ⟨other, named, needed, waiting⟩ := stuck source known (of_decide_eq_true open_)
  exact free other (List.mem_filter.mpr ⟨named, decide_eq_true waiting⟩) needed

/-- A list that has what an element depends on before the element. -/
def Respects (depends : α → α → Prop) (order : List α) : Prop :=
  ∀ before a after, order = before ++ a :: after → ∀ b, depends a b → b ∈ before

namespace Respects

theorem nil : Respects depends [] := by
  intro before a after split
  simp at split

theorem concat (respects : Respects depends order) (earlier : ∀ b, depends a b → b ∈ order) :
    Respects depends (order ++ [a]) := by
  intro before x after split b needed
  rcases List.eq_nil_or_concat after with rfl | ⟨rest, last, rfl⟩
  · obtain ⟨rfl, same⟩ := List.append_inj' split rfl
    obtain rfl : a = x := by simpa using same
    exact earlier b needed
  · rw [List.concat_eq_append, ← List.cons_append, ← List.append_assoc] at split
    exact respects before x rest (List.append_inj' split rfl).1 b needed

theorem append (respects : Respects depends order) {more : List α}
    (earlier : ∀ a ∈ more, ∀ b, depends a b → b ∈ order) : Respects depends (order ++ more) := by
  induction more generalizing order with
  | nil => rwa [List.append_nil]
  | cons a rest ih =>
    rw [← List.singleton_append, ← List.append_assoc]
    refine ih (respects.concat (earlier a List.mem_cons_self)) fun other member b needed => ?_
    exact List.mem_append_left _ (earlier other (List.mem_cons_of_mem _ member) b needed)

/-- What an element of the list depends on is in the list. -/
theorem mem (respects : Respects depends order) (member : a ∈ order) (needed : depends a b) :
    b ∈ order := by
  obtain ⟨before, after, rfl⟩ := List.append_of_mem member
  exact List.mem_append_left _ (respects before a after rfl b needed)

theorem idxOf_lt [BEq α] [LawfulBEq α] (respects : Respects depends order) (distinct : order.Nodup)
    (member : a ∈ order) (needed : depends a b) : order.idxOf b < order.idxOf a := by
  obtain ⟨before, after, rfl⟩ := List.append_of_mem member
  have earlier := respects before a after rfl b needed
  have later : a ∉ before := fun again =>
    (List.nodup_append.mp distinct).2.2 a again a List.mem_cons_self rfl
  rw [List.idxOf_append_of_mem earlier, List.idxOf_append_of_notMem later]
  exact (List.idxOf_lt_length_of_mem earlier).trans_le (Nat.le_add_right _ _)

/-- A relation that starts in a list it respects has no cycle. -/
theorem acyclic [DecidableEq α] (respects : Respects depends order) (distinct : order.Nodup)
    (starts : ∀ a b, depends a b → a ∈ order) : Acyclic depends := by
  have chain : ∀ a b, TransGen depends a b → b ∈ order ∧ order.idxOf b < order.idxOf a := by
    intro a b chained
    induction chained with
    | single needed =>
      have member := starts _ _ needed
      exact ⟨respects.mem member needed, respects.idxOf_lt distinct member needed⟩
    | tail _ needed ih =>
      exact ⟨respects.mem ih.1 needed, (respects.idxOf_lt distinct ih.1 needed).trans ih.2⟩
  intro a cycle
  exact lt_irrefl _ (chain a a cycle).2

end Respects
end Library
