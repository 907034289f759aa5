import Roboflow.Executor.SlotPool

/-! The runs of the slot pool: who holds a slot, and what an acquire returns. -/
namespace Roboflow.Executor
open Library

namespace SlotPool

variable {F : Type} [LE F] [DecidableLE F] {pool pool' : SlotPool F} {call : Call F}

/-! ### What an acquire returns -/

/-- At the search step of the call, as the answer says, no free slot could satisfy the
request, or the slot given was free and could. -/
def Answered (history : History (SlotPool F) (Act F) (Option Returned)) (call : Call F)
    (guard : Option SlotId) : Prop :=
  ∃ e ∈ history, ∃ i, e.act = .search i ∧ e.pre.calls[i]? = some { call with progress := .searching } ∧
    match guard with
    | none => ∀ slot ∈ e.pre.slots, slot.state = .free → slot.capacity.canSatisfy call.request = false
    | some id => ∃ slot ∈ e.pre.slots, slot.id = id ∧ slot.state = .free ∧
        slot.capacity.canSatisfy call.request = true

theorem Answered.later {guard : Option SlotId} (answered : Answered history call guard)
    (e : Transition (SlotPool F) (Act F) (Option Returned)) : Answered (e :: history) call guard := by
  obtain ⟨earlier, member, rest⟩ := answered
  exact ⟨earlier, List.mem_cons_of_mem _ member, rest⟩

def Justified (history : History (SlotPool F) (Act F) (Option Returned)) (call : Call F) : Prop :=
  match call.progress with
  | .waiting => True
  | .searching => True
  | .granted id => Answered history call (some id)
  | .refused => Answered history call none
  | .restored => Answered history call none

theorem Justified.later (justified : Justified history call)
    (e : Transition (SlotPool F) (Act F) (Option Returned)) : Justified (e :: history) call := by
  simp only [Justified] at justified ⊢
  cases progress : call.progress with
  | waiting => trivial
  | searching => trivial
  | granted id =>
    rw [progress] at justified
    exact justified.later e
  | refused =>
    rw [progress] at justified
    exact justified.later e
  | restored =>
    rw [progress] at justified
    exact justified.later e

/-- Every answer, given or about to be given, was found in a search. -/
structure Accounted (history : History (SlotPool F) (Act F) (Option Returned)) (pool : SlotPool F) :
    Prop where
  calls : ∀ call ∈ pool.calls, Justified history call
  outs : ∀ e ∈ history, ∀ returned, e.out = some returned →
    ∃ call : Call F, call.number = returned.number ∧ Answered history call returned.guard

theorem Accounted.next (accounted : Accounted history pool)
    (e : Transition (SlotPool F) (Act F) (Option Returned))
    (calls : ∀ call ∈ pool'.calls, call ∈ pool.calls ∨ Justified (e :: history) call)
    (out : ∀ returned, e.out = some returned →
      ∃ call ∈ pool.calls, call.number = returned.number ∧
        (Justified history call → Answered history call returned.guard)) :
    Accounted (e :: history) pool' where
  calls := fun call member =>
    (calls call member).elim (fun old => (accounted.calls call old).later e) fun fresh => fresh
  outs := by
    intro other member returned given
    rcases List.mem_cons.mp member with rfl | older
    · obtain ⟨call, listed, named, answered⟩ := out returned given
      exact ⟨call, named, (answered (accounted.calls call listed)).later _⟩
    · obtain ⟨call, named, answered⟩ := accounted.outs other older returned given
      exact ⟨call, named, answered.later e⟩

/-- A step that returns nothing. -/
theorem Accounted.silent (accounted : Accounted history pool) {a : Act F}
    (calls : ∀ call ∈ pool'.calls, call ∈ pool.calls ∨ Justified (⟨pool, a, none, pool'⟩ :: history) call) :
    Accounted (⟨pool, a, none, pool'⟩ :: history) pool' :=
  accounted.next _ calls fun returned given => by cases given

theorem accounted_of_run (run : Run (machine F) (withCapacity numSlots capacity) history pool) :
    Accounted history pool := by
  refine run.history_invariant ⟨by simp [withCapacity], by simp⟩ ?_
  intro history pool a pool' out _ accounted moved
  change step pool a = some (pool', out) at moved
  cases a with
  | call request taskId =>
    obtain ⟨rfl, rfl⟩ := Prod.mk.inj (Option.some.inj moved)
    refine accounted.silent fun call member => ?_
    rcases List.mem_append.mp member with old | new
    · exact .inl old
    · obtain rfl := List.mem_singleton.mp new
      exact .inr trivial
  | permit i =>
    obtain ⟨before, call, after, split, -, -, rfl, rfl⟩ := permit_cases moved
    refine accounted.silent fun other member => ?_
    rcases List.mem_cons.mp (List.perm_middle.mem_iff.mp member) with rfl | old
    · exact .inr trivial
    · exact .inl (split ▸ List.perm_middle.mem_iff.mpr (List.mem_cons_of_mem _ old))
  | search i =>
    obtain ⟨before, call, after, held, split, searching, rfl, cases_⟩ := search_cases moved
    have mine : pool.calls[i]? = some { call with progress := .searching } := by
      rw [held, ← searching]
    obtain ⟨id, slots, taken, rfl⟩ | ⟨none_, rfl⟩ := cases_
    · refine accounted.silent fun other member => ?_
      rcases List.mem_cons.mp (List.perm_middle.mem_iff.mp member) with rfl | old
      · obtain ⟨earlier, slot, later, slots, named, free, fits, -⟩ := occupy_some taken
        exact .inr ⟨_, List.mem_cons_self, i, rfl, mine, slot, by simp [slots], named, free, fits⟩
      · exact .inl (split ▸ List.perm_middle.mem_iff.mpr (List.mem_cons_of_mem _ old))
    · refine accounted.silent fun other member => ?_
      rcases List.mem_cons.mp (List.perm_middle.mem_iff.mp member) with rfl | old
      · exact .inr ⟨_, List.mem_cons_self, i, rfl, mine, occupy_none none_⟩
      · exact .inl (split ▸ List.perm_middle.mem_iff.mpr (List.mem_cons_of_mem _ old))
  | giveBack i =>
    obtain ⟨before, call, after, split, cases_⟩ := giveBack_cases moved
    have listed : call ∈ pool.calls := by simp [split]
    have others : ∀ other ∈ before ++ after, other ∈ pool.calls := fun other member =>
      split ▸ List.perm_middle.mem_iff.mpr (List.mem_cons_of_mem _ member)
    obtain ⟨id, granted, rfl, rfl⟩ | ⟨refused, rfl, rfl⟩ | ⟨restored, rfl, rfl⟩ := cases_
    · refine accounted.next _ (fun other member => .inl (others other member)) ?_
      rintro returned ⟨⟩
      exact ⟨call, listed, rfl, fun justified => by rwa [Justified, granted] at justified⟩
    · refine accounted.silent fun other member => ?_
      rcases List.mem_cons.mp (List.perm_middle.mem_iff.mp member) with rfl | old
      · have justified := accounted.calls call listed
        rw [Justified, refused] at justified
        exact .inr (justified.later _)
      · exact .inl (others other old)
    · refine accounted.next _ (fun other member => .inl (others other member)) ?_
      rintro returned ⟨⟩
      exact ⟨call, listed, rfl, fun justified => by rwa [Justified, restored] at justified⟩
  | drop i =>
    obtain ⟨before, id, after, -, rfl, rfl⟩ := drop_cases moved
    exact accounted.silent fun other member => .inl member
  | free i =>
    obtain ⟨before, id, after, -, rfl, rfl⟩ := free_cases moved
    exact accounted.silent fun other member => .inl member
  | credit =>
    obtain ⟨-, rfl, rfl⟩ := credit_cases moved
    exact accounted.silent fun other member => .inl member

/-! ### That an acquire with its permit returns -/

/-- The call at a position returns after at most so many steps, all its own. -/
inductive ReturnsAlone (i number : Nat) (guard : Option SlotId) : Nat → SlotPool F → Prop where
  | last (moved : step now (.giveBack i) = some (after, some ⟨number, guard⟩)) :
      ReturnsAlone i number guard (left + 1) now
  | next (own : a = .search i ∨ a = .giveBack i) (moved : step now a = some (after, none))
      (rest : ReturnsAlone i number guard left after) : ReturnsAlone i number guard (left + 1) now

theorem ReturnsAlone.mono {guard : Option SlotId} (returns : ReturnsAlone i number guard few pool)
    (more : few ≤ many) : ReturnsAlone i number guard many pool := by
  induction returns generalizing many with
  | last moved =>
    obtain ⟨left, rfl⟩ := Nat.exists_eq_add_of_le' more
    exact .last moved
  | next own moved _ ih =>
    obtain ⟨left, rfl⟩ := Nat.exists_eq_add_of_le' (Nat.one_le_of_lt more)
    exact .next own moved (ih (Nat.le_of_succ_le_succ more))

omit [LE F] [DecidableLE F] in
theorem getElem?_advance (held : pool.calls[i]? = some call) (progress : Progress) :
    (advance pool i call progress)[i]? = some { call with progress := progress } := by
  obtain ⟨inside, -⟩ := List.getElem?_eq_some_iff.mp held
  unfold advance
  rw [List.getElem?_set_self inside]

theorem granted_returns {id : SlotId} (held : pool.calls[i]? = some call)
    (granted : call.progress = .granted id) (named : call.number = number) :
    ReturnsAlone i number (some id) 1 pool := by
  subst named
  have moved : step pool (.giveBack i) = some ({ pool with
      permits := pool.permits + 1
      calls := pool.calls.eraseIdx i
      guards := pool.guards ++ [id] }, some ⟨call.number, some id⟩) := by
    simp only [step, held, granted]
  exact .last moved

theorem restored_returns (held : pool.calls[i]? = some call) (restored : call.progress = .restored)
    (named : call.number = number) : ReturnsAlone i number none 1 pool := by
  subst named
  have moved : step pool (.giveBack i) = some ({ pool with
      permits := pool.permits + 1
      calls := pool.calls.eraseIdx i }, some ⟨call.number, none⟩) := by
    simp only [step, held, restored]
  exact .last moved

theorem refused_returns (held : pool.calls[i]? = some call) (refused : call.progress = .refused)
    (named : call.number = number) : ReturnsAlone i number none 2 pool := by
  subst named
  have moved : step pool (.giveBack i) = some ({ pool with
      permits := pool.permits + 1
      calls := advance pool i call .restored }, none) := by
    simp only [step, held, refused]
  exact .next (.inr rfl) moved (restored_returns (getElem?_advance held .restored) rfl rfl)

/-- A search takes a slot or is refused at once. -/
theorem searching_returns (held : pool.calls[i]? = some call) (searching : call.progress = .searching) :
    ∃ guard, ReturnsAlone i call.number guard 3 pool ∧
      (guard = none ↔ ∀ slot ∈ pool.slots, slot.state = .free → slot.capacity.canSatisfy call.request = false) := by
  cases found : occupy call.request call.taskId pool.slots with
  | none =>
    have moved : step pool (.search i) =
        some ({ pool with calls := advance pool i call .refused }, none) := by
      simp only [step, held, searching, found, if_true]
    refine ⟨none, .next (.inl rfl) moved ?_, iff_of_true rfl (occupy_none found)⟩
    exact refused_returns (getElem?_advance held .refused) rfl rfl
  | some taken =>
    obtain ⟨id, slots⟩ := taken
    have moved : step pool (.search i) =
        some ({ pool with slots := slots, calls := advance pool i call (.granted id) }, none) := by
      simp only [step, held, searching, found, if_true]
    refine ⟨some id, .next (.inl rfl) moved ?_, ?_⟩
    · exact ReturnsAlone.mono (granted_returns (getElem?_advance held (.granted id)) rfl rfl) (by decide)
    · obtain ⟨before, slot, after, split, -, free, fits, -⟩ := occupy_some found
      refine iff_of_false (by simp) fun none_ => ?_
      have unfit := none_ slot (by simp [split]) free
      rw [fits] at unfit
      cases unfit

/-- Slots are held by one guard each, the free ones are all but those of the live guards once
nothing is in progress, and an acquire is refused where none of the free ones can satisfy it
when it searches them. An acquire with its permit waits for nobody: wherever the others are, at most
three steps of its own and it returns. -/
theorem slots_held_once
    (run : Run (machine F) (withCapacity numSlots capacity) history pool) :
    pool.guards.Nodup ∧ (pool.Quiet → pool.available + pool.guards.length = numSlots) ∧
      (∀ e ∈ history, ∀ returned, e.out = some returned →
        ∃ call : Call F, call.number = returned.number ∧ Answered history call returned.guard) ∧
      ∀ i call, pool.calls[i]? = some call → call.progress ≠ .waiting →
        ∃ guard, ReturnsAlone i call.number guard 3 pool ∧
          (call.progress = .searching → (guard = none ↔
            ∀ slot ∈ pool.slots, slot.state = .free → slot.capacity.canSatisfy call.request = false)) := by
  have kept := kept_of_run run
  refine ⟨?_, kept.available_quiet, (accounted_of_run run).outs, ?_⟩
  · have distinct := kept.distinct
    rw [holders, List.append_assoc] at distinct
    exact (List.nodup_append.mp (List.nodup_append.mp distinct).2.1).1
  · intro i call held begun
    cases progress : call.progress with
    | waiting => exact absurd progress begun
    | searching =>
      obtain ⟨guard, returns, refused⟩ := searching_returns held progress
      exact ⟨guard, returns, fun _ => refused⟩
    | granted id => exact ⟨some id, (granted_returns held progress rfl).mono (by decide), by simp⟩
    | refused => exact ⟨none, (refused_returns held progress rfl).mono (by decide), by simp⟩
    | restored => exact ⟨none, (restored_returns held progress rfl).mono (by decide), by simp⟩

/-- One slot, taken by one acquire. -/
theorem one_slot_held : ∃ history pool,
    Run (machine Nat) (withCapacity 1 ⟨1, 1, 0⟩) history pool ∧ pool.Quiet ∧ pool.guards = [0] ∧
      pool.available + pool.guards.length = 1 := by
  obtain ⟨history, pool, run, seen⟩ := Run.of_observation (machine Nat) (withCapacity 1 ⟨1, 1, 0⟩)
    [.call ⟨1, 1, 0⟩ 1, .permit 0, .search 0, .giveBack 0]
    (fun reached => (decide reached.2.Quiet, reached.2.guards)) (true, [0]) (by decide)
  obtain ⟨quiet, guards⟩ := Prod.mk.inj seen
  have quiet := of_decide_eq_true quiet
  exact ⟨history, pool, run, quiet, guards, (slots_held_once run).2.1 quiet⟩

/-- The pool of one slot is told to have two after one acquire, and refuses the second. -/
theorem second_acquire_refused :
    (∃ history pool, Run (machine Nat) (withCapacity 1 ⟨1, 1, 0⟩) history pool ∧
      (pool.Quiet ∧ pool.permits = 1 ∧ pool.available = 0 ∧ pool.total = 2)) ∧
    ∃ history pool, Run (machine Nat) (withCapacity 1 ⟨1, 1, 0⟩) history pool ∧
      (history.head?.map (·.out)) = some (some ⟨1, none⟩) := by
  refine ⟨?_, ?_⟩
  · obtain ⟨history, pool, run, seen⟩ := Run.of_observation (machine Nat) (withCapacity 1 ⟨1, 1, 0⟩)
      [.call ⟨1, 1, 0⟩ 1, .permit 0, .search 0, .giveBack 0]
      (fun reached => decide (reached.2.Quiet ∧ reached.2.permits = 1 ∧ reached.2.available = 0 ∧
        reached.2.total = 2)) true (by decide)
    exact ⟨history, pool, run, of_decide_eq_true seen⟩
  · exact Run.of_observation (machine Nat) (withCapacity 1 ⟨1, 1, 0⟩)
      [.call ⟨1, 1, 0⟩ 1, .permit 0, .search 0, .giveBack 0,
        .call ⟨1, 1, 0⟩ 2, .permit 0, .search 0, .giveBack 0, .giveBack 0]
      (fun reached => reached.1.head?.map (·.out)) (some (some ⟨1, none⟩)) (by decide)

end SlotPool
end Roboflow.Executor
