import Roboflow.Library.Machine

/-! Loops that fill buffers. A write outside its buffer is no result. Where the value
written depends on the cell alone, the order of the writes does not matter: a cell
that has its value keeps it, and the loop is done when its writes have been to every
cell. -/
namespace Library

variable {π β : Type} [DecidableEq π]

/-- A write of one cell. -/
def write (planes : π → List β) (p : π) (i : Nat) (value : β) : Option (π → List β) :=
  if i < (planes p).length then some (Function.update planes p ((planes p).set i value)) else none

/-- A write of neighbouring cells. -/
def writeRange (planes : π → List β) (p : π) (i : Nat) (values : List β) :
    Option (π → List β) :=
  if i + values.length ≤ (planes p).length then
    some (Function.update planes p
      ((planes p).take i ++ values ++ (planes p).drop (i + values.length)))
  else none

/-- A loop over `keys` gathers in `S` what each of its passes adds. -/
theorem foldlM_gather {P : Set ι → σ → Prop} (adds : κ → Set ι) (body : σ → κ → Option σ)
    (keys : List κ)
    (pass : ∀ k ∈ keys, ∀ S s, P S s → ∃ s', body s k = some s' ∧ P (S ∪ adds k) s')
    {S : Set ι} {s : σ} (start : P S s) :
    ∃ s', keys.foldlM body s = some s' ∧ P (S ∪ {i | ∃ k ∈ keys, i ∈ adds k}) s' := by
  induction keys generalizing S s with
  | nil => exact ⟨s, rfl, by simpa using start⟩
  | cons k rest ih =>
    obtain ⟨s₁, moved, after⟩ := pass k List.mem_cons_self S s start
    obtain ⟨s₂, finished, gathered⟩ := ih (fun j member => pass j (List.mem_cons_of_mem k member)) after
    refine ⟨s₂, by simp [List.foldlM_cons, moved, finished], ?_⟩
    have same : S ∪ adds k ∪ {i | ∃ j ∈ rest, i ∈ adds j} =
        S ∪ {i | ∃ j ∈ k :: rest, i ∈ adds j} := by
      ext i
      simp [or_assoc]
    exact same ▸ gathered

/-- A map whose every call succeeds. -/
theorem mapM_total {f : κ → Option ι} {g : κ → ι} (keys : List κ)
    (each : ∀ k ∈ keys, f k = some (g k)) : keys.mapM f = some (keys.map g) := by
  induction keys with
  | nil => rfl
  | cons k rest ih =>
    rw [List.mapM_cons, each k List.mem_cons_self,
      ih fun j member => each j (List.mem_cons_of_mem k member)]
    rfl

/-- The cells of `S` have their values. -/
structure Painted (size : π → Nat) (target : π → Nat → β) (S : Set (π × Nat))
    (planes : π → List β) : Prop where
  length : ∀ p, (planes p).length = size p
  done : ∀ p i, (p, i) ∈ S → (planes p)[i]? = some (target p i)

namespace Painted

variable {size : π → Nat} {target : π → Nat → β} {S : Set (π × Nat)} {planes : π → List β}

omit [DecidableEq π] in
theorem initial (length : ∀ p, (planes p).length = size p) : Painted size target ∅ planes :=
  ⟨length, by simp⟩

omit [DecidableEq π] in
theorem mono (painted : Painted size target S planes) (fewer : S' ⊆ S) :
    Painted size target S' planes :=
  ⟨painted.length, fun p i member => painted.done p i (fewer member)⟩

theorem write (painted : Painted size target S planes) {p : π} {i : Nat} (inside : i < size p)
    (value : β) (right : value = target p i) :
    ∃ after, Library.write planes p i value = some after ∧
      Painted size target (S ∪ {(p, i)}) after := by
  have low : i < (planes p).length := by rw [painted.length p]; exact inside
  refine ⟨_, if_pos low, ?_, ?_⟩
  · intro q
    by_cases same : q = p
    · subst same
      simp [painted.length]
    · simp [same, painted.length]
  · intro q j member
    by_cases same : q = p
    · subst same
      by_cases here : j = i
      · subst here
        simp [low, right]
      · have older : (q, j) ∈ S := by simpa [here] using member
        rw [Function.update_self, List.getElem?_set_ne (Ne.symm here)]
        exact painted.done q j older
    · have older : (q, j) ∈ S := by simpa [same] using member
      rw [Function.update_of_ne same]
      exact painted.done q j older

theorem writeRange (painted : Painted size target S planes) {p : π} {i : Nat} (values : List β)
    (inside : i + values.length ≤ size p)
    (right : ∀ j, j < values.length → values[j]? = some (target p (i + j))) :
    ∃ after, Library.writeRange planes p i values = some after ∧
      Painted size target (S ∪ {cell | cell.1 = p ∧ i ≤ cell.2 ∧ cell.2 < i + values.length})
        after := by
  have low : i + values.length ≤ (planes p).length := by rw [painted.length p]; exact inside
  refine ⟨_, if_pos low, ?_, ?_⟩
  · intro q
    by_cases same : q = p
    · subst same
      rw [Function.update_self, ← painted.length q]
      simp only [List.length_append, List.length_take, List.length_drop]
      omega
    · rw [Function.update_of_ne same]
      exact painted.length q
  · intro q j member
    by_cases same : q = p
    · subst same
      rw [Function.update_self]
      have front : ((planes q).take i).length = i := by
        rw [List.length_take]
        omega
      by_cases before : j < i
      · have older : (q, j) ∈ S := by
          rcases member with older | new
          · exact older
          · exact absurd new.2.1 (by simpa using before)
        rw [List.append_assoc, List.getElem?_append_left (by omega), List.getElem?_take_of_lt before]
        exact painted.done q j older
      · by_cases within : j < i + values.length
        · rw [List.append_assoc, List.getElem?_append_right (by omega), front,
            List.getElem?_append_left (by omega), right _ (by omega), Nat.add_sub_cancel' (by omega)]
        · have older : (q, j) ∈ S := by
            rcases member with older | new
            · exact older
            · exact absurd new.2.2 (by simpa using within)
          have both : ((planes q).take i ++ values).length = i + values.length := by
            rw [List.length_append, front]
          rw [List.getElem?_append_right (by omega), both, List.getElem?_drop,
            Nat.add_sub_cancel' (by omega)]
          exact painted.done q j older
    · have older : (q, j) ∈ S := by
        rcases member with older | new
        · exact older
        · exact absurd new.1 same
      rw [Function.update_of_ne same]
      exact painted.done q j older

omit [DecidableEq π] in
/-- A buffer whose every cell has its value. -/
theorem complete (painted : Painted size target S planes) {p : π}
    (all : ∀ i, i < size p → (p, i) ∈ S) : planes p = (List.range (size p)).map (target p) := by
  apply List.ext_getElem?
  intro i
  by_cases inside : i < size p
  · rw [painted.done p i (all i inside)]
    simp [inside]
  · have outside : (planes p).length ≤ i := by rw [painted.length p]; omega
    rw [List.getElem?_eq_none outside]
    simp [inside]

end Painted

end Library
