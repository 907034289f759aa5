import Roboflow.Library.Machine

/-! Tokens with one owner. A token is held, in transit with one party, or free; it
moves by being claimed out of the free ones, completing into the held ones, being
dropped into transit again, and being freed. -/
namespace Library

/-- Nobody owns a token twice: the held ones are distinct, and one in transit is with
one party and not among them. -/
structure Owners (held : List ι) (transit : τ → Option ι) : Prop where
  distinct : held.Nodup
  single : ∀ t u i, transit t = some i → transit u = some i → t = u
  apart : ∀ t i, transit t = some i → i ∉ held

/-- A token that is held or in transit. -/
def Owned (held : List ι) (transit : τ → Option ι) (i : ι) : Prop :=
  i ∈ held ∨ ∃ t, transit t = some i

namespace Owners

variable {held : List ι} {transit : τ → Option ι} {t : τ} {i j : ι}

theorem initial : Owners ([] : List ι) (fun _ : τ => none) :=
  ⟨List.nodup_nil, by simp, by simp⟩

theorem owned_of_transit {u : τ} (own : transit u = some j) : Owned held transit j := .inr ⟨u, own⟩

variable [DecidableEq τ]

/-- Who a token in transit is with, after one party's token has changed. -/
theorem transit_update {token : Option ι} {u : τ}
    (moving : Function.update transit t token u = some j) :
    (u = t ∧ token = some j) ∨ (u ≠ t ∧ transit u = some j) := by
  by_cases same : u = t
  · subst same
    exact .inl ⟨rfl, by simpa using moving⟩
  · exact .inr ⟨same, by simpa [same] using moving⟩

theorem owned_update {token : Option ι} :
    Owned held (Function.update transit t token) j ↔
      j ∈ held ∨ token = some j ∨ ∃ u, u ≠ t ∧ transit u = some j := by
  constructor
  · rintro (within | ⟨u, moving⟩)
    · exact .inl within
    · rcases transit_update moving with ⟨-, own⟩ | ⟨other, own⟩
      · exact .inr (.inl own)
      · exact .inr (.inr ⟨u, other, own⟩)
  · rintro (within | own | ⟨u, other, own⟩)
    · exact .inl within
    · exact .inr ⟨t, by simpa using own⟩
    · exact .inr ⟨u, by simpa [other] using own⟩

/-- A party with nothing in transit takes a free token. -/
theorem claim (o : Owners held transit) (free : ¬Owned held transit i) :
    Owners held (Function.update transit t (some i)) := by
  refine ⟨o.distinct, ?_, ?_⟩
  · intro a b j first second
    rcases transit_update first with ⟨rfl, same⟩ | ⟨-, owns⟩ <;>
      rcases transit_update second with ⟨rfl, same'⟩ | ⟨-, owns'⟩
    · rfl
    · cases same
      exact absurd (owned_of_transit owns') free
    · cases same'
      exact absurd (owned_of_transit owns) free
    · exact o.single a b j owns owns'
  · intro a j moving
    rcases transit_update moving with ⟨-, same⟩ | ⟨-, owns⟩
    · cases same
      exact fun within => free (.inl within)
    · exact o.apart a j owns

theorem owned_claim (idle : transit t = none) :
    Owned held (Function.update transit t (some i)) j ↔ j = i ∨ Owned held transit j := by
  rw [owned_update]
  constructor
  · rintro (within | own | ⟨u, -, own⟩)
    · exact .inr (.inl within)
    · exact .inl (Option.some.inj own).symm
    · exact .inr (owned_of_transit own)
  · rintro (rfl | within | ⟨u, own⟩)
    · exact .inr (.inl rfl)
    · exact .inl within
    · exact .inr (.inr ⟨u, by rintro rfl; simp [idle] at own, own⟩)

/-- The token in transit becomes a held one. -/
theorem complete (o : Owners held transit) (moving : transit t = some i) :
    Owners (i :: held) (Function.update transit t none) := by
  refine ⟨List.nodup_cons.mpr ⟨o.apart t i moving, o.distinct⟩, ?_, ?_⟩
  · intro a b j first second
    rcases transit_update first with ⟨-, nothing⟩ | ⟨-, owns⟩
    · cases nothing
    · rcases transit_update second with ⟨-, nothing⟩ | ⟨-, owns'⟩
      · cases nothing
      · exact o.single a b j owns owns'
  · intro a j first
    rcases transit_update first with ⟨-, nothing⟩ | ⟨other, owns⟩
    · cases nothing
    · rw [List.mem_cons, not_or]
      refine ⟨?_, o.apart a j owns⟩
      rintro rfl
      exact other (o.single a t j owns moving)

theorem owned_complete (moving : transit t = some i) :
    Owned (i :: held) (Function.update transit t none) j ↔ Owned held transit j := by
  rw [owned_update]
  constructor
  · rintro (within | nothing | ⟨u, -, own⟩)
    · rcases List.mem_cons.mp within with rfl | older
      · exact owned_of_transit moving
      · exact .inl older
    · cases nothing
    · exact owned_of_transit own
  · rintro (within | ⟨u, own⟩)
    · exact .inl (List.mem_cons_of_mem _ within)
    · by_cases same : u = t
      · subst same
        cases own.symm.trans moving
        exact .inl List.mem_cons_self
      · exact .inr (.inr ⟨u, same, own⟩)

/-- A held token goes into transit with a party that has none. -/
theorem drop [DecidableEq ι] (o : Owners held transit) (within : i ∈ held) :
    Owners (held.erase i) (Function.update transit t (some i)) := by
  refine ⟨o.distinct.erase i, ?_, ?_⟩
  · intro a b j first second
    rcases transit_update first with ⟨rfl, same⟩ | ⟨-, owns⟩ <;>
      rcases transit_update second with ⟨rfl, same'⟩ | ⟨-, owns'⟩
    · rfl
    · cases same
      exact absurd within (o.apart b _ owns')
    · cases same'
      exact absurd within (o.apart a _ owns)
    · exact o.single a b j owns owns'
  · intro a j first
    rcases transit_update first with ⟨-, same⟩ | ⟨-, owns⟩
    · cases same
      exact o.distinct.not_mem_erase
    · exact fun remains => o.apart a j owns (List.mem_of_mem_erase remains)

theorem owned_drop [DecidableEq ι] (within : i ∈ held) (idle : transit t = none) :
    Owned (held.erase i) (Function.update transit t (some i)) j ↔ Owned held transit j := by
  rw [owned_update]
  constructor
  · rintro (remains | own | ⟨u, -, own⟩)
    · exact .inl (List.mem_of_mem_erase remains)
    · cases own
      exact .inl within
    · exact owned_of_transit own
  · rintro (before | ⟨u, own⟩)
    · by_cases same : j = i
      · exact .inr (.inl (by rw [same]))
      · exact .inl ((List.mem_erase_of_ne same).mpr before)
    · exact .inr (.inr ⟨u, by rintro rfl; simp [idle] at own, own⟩)

/-- The token in transit is free again. -/
theorem free (o : Owners held transit) : Owners held (Function.update transit t none) := by
  refine ⟨o.distinct, ?_, ?_⟩
  · intro a b j first second
    rcases transit_update first with ⟨-, nothing⟩ | ⟨-, owns⟩
    · cases nothing
    · rcases transit_update second with ⟨-, nothing⟩ | ⟨-, owns'⟩
      · cases nothing
      · exact o.single a b j owns owns'
  · intro a j first
    rcases transit_update first with ⟨-, nothing⟩ | ⟨-, owns⟩
    · cases nothing
    · exact o.apart a j owns

theorem owned_free (o : Owners held transit) (moving : transit t = some i) :
    Owned held (Function.update transit t none) j ↔ Owned held transit j ∧ j ≠ i := by
  rw [owned_update]
  constructor
  · rintro (within | nothing | ⟨u, other, own⟩)
    · exact ⟨.inl within, by rintro rfl; exact o.apart t j moving within⟩
    · cases nothing
    · exact ⟨owned_of_transit own, by rintro rfl; exact other (o.single u t j own moving)⟩
  · rintro ⟨within | ⟨u, own⟩, other⟩
    · exact .inl within
    · refine .inr (.inr ⟨u, ?_, own⟩)
      rintro rfl
      exact other (Option.some.inj (own.symm.trans moving))

end Owners

end Library
