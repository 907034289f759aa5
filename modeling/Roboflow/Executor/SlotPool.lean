import Roboflow.Library.Machine
import Roboflow.Library.Positions
import Roboflow.Executor.Pipeline

/-! The slot pool of `resource.rs`. Permits and slot states are two books, changed in
separate steps of an acquire and of the release that a dropped guard spawns. The lock on the
slots is held within single steps only. -/
namespace Roboflow.Executor
open Library

abbrev SlotId := Nat

inductive SlotState where
  | free
  | reserved
  | busy
  | draining
  deriving DecidableEq

/-- The cores and the memory are floating point: of their order only the comparison is used. -/
structure ResourceCapacity (F : Type) where
  cpuCores : F
  memoryGb : F
  gpuCount : Nat
  deriving DecidableEq

structure ResourceRequest (F : Type) where
  cpuCores : F
  memoryGb : F
  gpuCount : Nat
  deriving DecidableEq

def ResourceCapacity.canSatisfy [LE F] [DecidableLE F] (capacity : ResourceCapacity F)
    (request : ResourceRequest F) : Bool :=
  request.cpuCores ≤ capacity.cpuCores && request.memoryGb ≤ capacity.memoryGb &&
    request.gpuCount ≤ capacity.gpuCount

structure Slot (F : Type) where
  id : SlotId
  state : SlotState
  taskId : Option TaskId
  capacity : ResourceCapacity F
  deriving DecidableEq

/-- How far a call of `acquire` has come. The permit is held from `searching` on; a refused
call gives it back twice. -/
inductive Progress where
  | waiting
  | searching
  | granted (id : SlotId)
  | refused
  | restored
  deriving DecidableEq

/-- The slot a call has taken. -/
def Progress.slot : Progress → Option SlotId
  | .granted id => some id
  | _ => none

structure Call (F : Type) where
  number : Nat
  request : ResourceRequest F
  taskId : TaskId
  progress : Progress
  deriving DecidableEq

/-- `dropped` are the guards whose release has not reached the slots, `freed` counts the
releases that have and owe their permit. -/
structure SlotPool (F : Type) where
  slots : List (Slot F)
  permits : Nat
  calls : List (Call F)
  called : Nat
  guards : List SlotId
  dropped : List SlotId
  freed : Nat
  deriving DecidableEq

/-- A call that returns: the guard it gives, by its slot. -/
structure Returned where
  number : Nat
  guard : Option SlotId
  deriving DecidableEq

namespace SlotPool

variable {F : Type}

def withCapacity (numSlots : Nat) (capacity : ResourceCapacity F) : SlotPool F where
  slots := (List.range numSlots).map fun i => ⟨i, .free, none, capacity⟩
  permits := numSlots
  calls := []
  called := 0
  guards := []
  dropped := []
  freed := 0

def available (pool : SlotPool F) : Nat := pool.slots.countP fun slot => slot.state = .free

/-- Read while nobody holds the lock. -/
def total (pool : SlotPool F) : Nat :=
  pool.permits + pool.slots.countP fun slot => slot.state ≠ .free

/-- The first free slot that can satisfy the request is taken. -/
def occupy [LE F] [DecidableLE F] (request : ResourceRequest F) (taskId : TaskId) :
    List (Slot F) → Option (SlotId × List (Slot F))
  | [] => none
  | slot :: rest =>
    if slot.state = .free ∧ slot.capacity.canSatisfy request then
      some (slot.id, { slot with state := .busy, taskId := some taskId } :: rest)
    else
      match occupy request taskId rest with
      | none => none
      | some (id, rest) => some (id, slot :: rest)

def vacate (id : SlotId) : List (Slot F) → List (Slot F)
  | [] => []
  | slot :: rest =>
    if slot.id = id then { slot with state := .free, taskId := none } :: rest
    else slot :: vacate id rest

inductive Act (F : Type) where
  | call (request : ResourceRequest F) (taskId : TaskId)
  | permit (i : Nat)
  | search (i : Nat)
  | giveBack (i : Nat)
  | drop (i : Nat)
  | free (i : Nat)
  | credit
  deriving DecidableEq

/-- A call put further. -/
def advance (pool : SlotPool F) (i : Nat) (call : Call F) (progress : Progress) : List (Call F) :=
  pool.calls.set i { call with progress := progress }

def step [LE F] [DecidableLE F] (pool : SlotPool F) : Act F → Option (SlotPool F × Option Returned)
  | .call request taskId =>
    some ({ pool with
      calls := pool.calls ++ [⟨pool.called, request, taskId, .waiting⟩]
      called := pool.called + 1 }, none)
  | .permit i =>
    match pool.calls[i]? with
    | none => none
    | some call =>
      if call.progress = .waiting ∧ 0 < pool.permits then
        some ({ pool with
          permits := pool.permits - 1
          calls := advance pool i call .searching }, none)
      else none
  | .search i =>
    match pool.calls[i]? with
    | none => none
    | some call =>
      if call.progress = .searching then
        match occupy call.request call.taskId pool.slots with
        | some (id, slots) =>
          some ({ pool with slots := slots, calls := advance pool i call (.granted id) }, none)
        | none => some ({ pool with calls := advance pool i call .refused }, none)
      else none
  | .giveBack i =>
    match pool.calls[i]? with
    | none => none
    | some call =>
      match call.progress with
      | .waiting => none
      | .searching => none
      | .granted id =>
        some ({ pool with
          permits := pool.permits + 1
          calls := pool.calls.eraseIdx i
          guards := pool.guards ++ [id] }, some ⟨call.number, some id⟩)
      | .refused =>
        some ({ pool with
          permits := pool.permits + 1
          calls := advance pool i call .restored }, none)
      | .restored =>
        some ({ pool with
          permits := pool.permits + 1
          calls := pool.calls.eraseIdx i }, some ⟨call.number, none⟩)
  | .drop i =>
    match pool.guards[i]? with
    | none => none
    | some id =>
      some ({ pool with
        guards := pool.guards.eraseIdx i
        dropped := pool.dropped ++ [id] }, none)
  | .free i =>
    match pool.dropped[i]? with
    | none => none
    | some id =>
      some ({ pool with
        slots := vacate id pool.slots
        dropped := pool.dropped.eraseIdx i
        freed := pool.freed + 1 }, none)
  | .credit =>
    if 0 < pool.freed then
      some ({ pool with permits := pool.permits + 1, freed := pool.freed - 1 }, none)
    else none

def machine (F : Type) [LE F] [DecidableLE F] : Machine (SlotPool F) (Act F) (Option Returned) where
  step := step

/-- No acquire and no release is in progress. -/
structure Quiet (pool : SlotPool F) : Prop where
  calls : pool.calls = []
  dropped : pool.dropped = []
  freed : pool.freed = 0

instance [DecidableEq F] (pool : SlotPool F) : Decidable pool.Quiet :=
  decidable_of_iff (pool.calls = [] ∧ pool.dropped = [] ∧ pool.freed = 0)
    ⟨fun ⟨calls, dropped, freed⟩ => ⟨calls, dropped, freed⟩,
      fun quiet => ⟨quiet.calls, quiet.dropped, quiet.freed⟩⟩

variable {pool pool' : SlotPool F} {slots slots' : List (Slot F)} {id : SlotId}
  {request : ResourceRequest F} {call : Call F}

/-! ### The slots -/

theorem occupy_none [LE F] [DecidableLE F] (refused : occupy request taskId slots = none) :
    ∀ slot ∈ slots, slot.state = .free → slot.capacity.canSatisfy request = false := by
  induction slots with
  | nil => simp
  | cons first rest ih =>
    simp only [occupy] at refused
    split at refused
    · cases refused
    · rename_i unfit
      split at refused
      · rename_i none_
        intro slot member free
        rcases List.mem_cons.mp member with rfl | later
        · simpa [free] using unfit
        · exact ih none_ slot later free
      · cases refused

/-- The slot taken was free and fits, and no other is touched. -/
theorem occupy_some [LE F] [DecidableLE F] (taken : occupy request taskId slots = some (id, slots')) :
    ∃ before slot after, slots = before ++ slot :: after ∧ slot.id = id ∧ slot.state = .free ∧
      slot.capacity.canSatisfy request = true ∧
      slots' = before ++ { slot with state := .busy, taskId := some taskId } :: after := by
  induction slots generalizing slots' with
  | nil => cases taken
  | cons first rest ih =>
    simp only [occupy] at taken
    split at taken
    · rename_i fits
      obtain ⟨rfl, rfl⟩ := Prod.mk.inj (Option.some.inj taken)
      exact ⟨[], first, rest, rfl, rfl, fits.1, fits.2, rfl⟩
    · split at taken
      · cases taken
      · rename_i other rest' found
        obtain ⟨rfl, rfl⟩ := Prod.mk.inj (Option.some.inj taken)
        obtain ⟨before, slot, after, rfl, named, free, fits, rfl⟩ := ih found
        exact ⟨first :: before, slot, after, rfl, named, free, fits, rfl⟩

theorem vacate_split (distinct : (slots.map Slot.id).Nodup) (member : id ∈ slots.map Slot.id) :
    ∃ before slot after, slots = before ++ slot :: after ∧ slot.id = id ∧
      vacate id slots = before ++ { slot with state := .free, taskId := none } :: after := by
  induction slots with
  | nil => cases member
  | cons first rest ih =>
    by_cases same : first.id = id
    · exact ⟨[], first, rest, rfl, same, by simp [vacate, same]⟩
    · have later := (List.mem_cons.mp member).resolve_left (Ne.symm same)
      obtain ⟨before, slot, after, rfl, named, emptied⟩ := ih (List.nodup_cons.mp distinct).2 later
      exact ⟨first :: before, slot, after, rfl, named, by simp [vacate, same, emptied]⟩

/-! ### What is held -/

/-- The slots held by calls that return, by guards and by releases that have not freed them. -/
def holders (pool : SlotPool F) : List SlotId :=
  pool.calls.filterMap (fun call => call.progress.slot) ++ pool.guards ++ pool.dropped

/-- A slot is busy exactly if it is held, and it is held once. -/
structure Kept (numSlots : Nat) (pool : SlotPool F) : Prop where
  ids : pool.slots.map Slot.id = List.range numSlots
  distinct : pool.holders.Nodup
  known : ∀ id ∈ pool.holders, id < numSlots
  states : ∀ slot ∈ pool.slots, slot.state = if slot.id ∈ pool.holders then .busy else .free

theorem Kept.of_perm (kept : Kept numSlots pool) (same : pool'.slots = pool.slots)
    (perm : pool'.holders.Perm pool.holders) : Kept numSlots pool' where
  ids := same ▸ kept.ids
  distinct := perm.nodup_iff.mpr kept.distinct
  known := fun id member => kept.known id (perm.mem_iff.mp member)
  states := by
    intro slot member
    rw [same] at member
    simp only [kept.states slot member, perm.mem_iff]

/-- One slot changes its state. -/
theorem Kept.replace (kept : Kept numSlots pool) (split : pool.slots = before ++ slot :: after)
    (replaced : pool'.slots = before ++ other :: after) (same : other.id = slot.id)
    (distinct : pool'.holders.Nodup) (known : ∀ id ∈ pool'.holders, id < numSlots)
    (state : other.state = if slot.id ∈ pool'.holders then .busy else .free)
    (rest : ∀ id, id ≠ slot.id → (id ∈ pool'.holders ↔ id ∈ pool.holders)) : Kept numSlots pool' := by
  have once : (pool.slots.map Slot.id).Nodup := kept.ids ▸ List.nodup_range
  rw [split, List.map_append, List.map_cons, List.nodup_middle, List.nodup_cons] at once
  have apart : ∀ third ∈ before ++ after, third.id ≠ slot.id := by
    intro third member equal
    refine once.1 ?_
    rw [← List.map_append, ← equal]
    exact List.mem_map_of_mem member
  refine ⟨?_, distinct, known, fun third member => ?_⟩
  · rw [← kept.ids, split, replaced]
    simp [same]
  · rw [replaced, List.perm_middle.mem_iff] at member
    rcases List.mem_cons.mp member with rfl | among
    · rw [state, same]
    · have listed : third ∈ pool.slots := by
        rw [split, List.perm_middle.mem_iff]
        exact List.mem_cons_of_mem _ among
      simp only [kept.states third listed, rest third.id (apart third among)]

/-- One more slot is held. -/
theorem Kept.occupy [LE F] [DecidableLE F] (kept : Kept numSlots pool)
    (taken : occupy request taskId pool.slots = some (id, pool'.slots))
    (perm : pool'.holders.Perm (id :: pool.holders)) : Kept numSlots pool' := by
  obtain ⟨before, slot, after, split, rfl, free, -, slots⟩ := occupy_some taken
  have mine : slot ∈ pool.slots := by simp [split]
  have unheld : slot.id ∉ pool.holders := by
    intro held
    have busy := kept.states slot mine
    rw [if_pos held, free] at busy
    cases busy
  refine kept.replace split slots rfl ?_ (fun id member => ?_) ?_ fun id other => ?_
  · exact perm.nodup_iff.mpr (List.nodup_cons.mpr ⟨unheld, kept.distinct⟩)
  · rcases List.mem_cons.mp (perm.mem_iff.mp member) with rfl | held
    · have listed := List.mem_map_of_mem (f := Slot.id) mine
      rwa [kept.ids, List.mem_range] at listed
    · exact kept.known id held
  · rw [if_pos (perm.mem_iff.mpr List.mem_cons_self)]
  · rw [perm.mem_iff, List.mem_cons, or_iff_right other]

/-- One slot less is held. -/
theorem Kept.vacate (kept : Kept numSlots pool) (emptied : pool'.slots = vacate id pool.slots)
    (perm : pool.holders.Perm (id :: pool'.holders)) : Kept numSlots pool' := by
  have held := kept.known id (perm.mem_iff.mpr List.mem_cons_self)
  have listed : id ∈ pool.slots.map Slot.id := by rwa [kept.ids, List.mem_range]
  obtain ⟨before, slot, after, split, rfl, same⟩ :=
    vacate_split (kept.ids ▸ List.nodup_range) listed
  obtain ⟨gone, distinct⟩ := List.nodup_cons.mp (perm.nodup_iff.mp kept.distinct)
  refine kept.replace split (emptied.trans same) rfl distinct (fun id member => ?_) ?_ fun id other => ?_
  · exact kept.known id (perm.mem_iff.mpr (List.mem_cons_of_mem _ member))
  · rw [if_neg gone]
  · rw [perm.mem_iff, List.mem_cons, or_iff_right other]

theorem countP_range_notMem {ids : List Nat} (distinct : ids.Nodup) (known : ∀ id ∈ ids, id < n) :
    (List.range n).countP (fun id => id ∉ ids) + ids.length = n := by
  have inside : ((List.range n).filter fun id => id ∈ ids).Perm ids := by
    refine (List.perm_ext_iff_of_nodup (List.nodup_range.filter _) distinct).mpr fun id => ?_
    simp only [List.mem_filter, List.mem_range, decide_eq_true_iff]
    exact ⟨fun both => both.2, fun member => ⟨known id member, member⟩⟩
  have parts := List.length_eq_countP_add_countP (fun id => decide (id ∈ ids)) (l := List.range n)
  rw [List.countP_eq_length_filter (p := fun id => decide (id ∈ ids)), inside.length_eq,
    List.length_range] at parts
  have same : (List.range n).countP (fun id => id ∉ ids) =
      (List.range n).countP fun id => ¬ decide (id ∈ ids) = true := by
    simp only [decide_eq_true_iff]
  omega

/-- The free slots are those that nobody holds. -/
theorem Kept.available_eq (kept : Kept numSlots pool) :
    pool.available + pool.holders.length = numSlots := by
  have free : pool.available = (pool.slots.map Slot.id).countP fun id => id ∉ pool.holders := by
    rw [available, List.countP_map]
    refine List.countP_congr fun slot member => ?_
    rw [kept.states slot member]
    by_cases held : slot.id ∈ pool.holders <;> simp [held]
  rw [free, kept.ids]
  exact countP_range_notMem kept.distinct kept.known

theorem Kept.available_quiet (kept : Kept numSlots pool) (quiet : pool.Quiet) :
    pool.available + pool.guards.length = numSlots := by
  have free := kept.available_eq
  rwa [holders, quiet.calls, quiet.dropped, List.filterMap_nil, List.nil_append,
    List.append_nil] at free

/-! ### What a step can do -/

section

variable [LE F] [DecidableLE F]

theorem permit_cases (moved : step pool (.permit i) = some (pool', out)) :
    ∃ before call after, pool.calls = before ++ call :: after ∧ call.progress = .waiting ∧
      0 < pool.permits ∧ out = none ∧ pool' = { pool with
        permits := pool.permits - 1
        calls := before ++ { call with progress := .searching } :: after } := by
  simp only [step] at moved
  split at moved
  · cases moved
  · rename_i call held
    split at moved
    · rename_i free
      obtain ⟨rfl, rfl⟩ := Prod.mk.inj (Option.some.inj moved)
      obtain ⟨before, after, split, replaced, -⟩ := exists_split held
      exact ⟨before, call, after, split, free.1, free.2, rfl, by rw [advance, replaced]⟩
    · cases moved

theorem search_cases (moved : step pool (.search i) = some (pool', out)) :
    ∃ before call after, pool.calls[i]? = some call ∧ pool.calls = before ++ call :: after ∧
      call.progress = .searching ∧ out = none ∧
      ((∃ id slots, occupy call.request call.taskId pool.slots = some (id, slots) ∧ pool' = { pool with
        slots := slots
        calls := before ++ { call with progress := .granted id } :: after }) ∨
      (occupy call.request call.taskId pool.slots = none ∧ pool' = { pool with
        calls := before ++ { call with progress := .refused } :: after })) := by
  simp only [step] at moved
  split at moved
  · cases moved
  · rename_i call held
    obtain ⟨before, after, split, replaced, -⟩ := exists_split held
    split at moved
    · rename_i searching
      split at moved
      · rename_i id slots taken
        obtain ⟨rfl, rfl⟩ := Prod.mk.inj (Option.some.inj moved)
        exact ⟨before, call, after, held, split, searching, rfl,
          .inl ⟨id, slots, taken, by rw [advance, replaced]⟩⟩
      · rename_i none_
        obtain ⟨rfl, rfl⟩ := Prod.mk.inj (Option.some.inj moved)
        exact ⟨before, call, after, held, split, searching, rfl, .inr ⟨none_, by rw [advance, replaced]⟩⟩
    · cases moved

theorem giveBack_cases (moved : step pool (.giveBack i) = some (pool', out)) :
    ∃ before call after, pool.calls = before ++ call :: after ∧
      ((∃ id, call.progress = .granted id ∧ out = some ⟨call.number, some id⟩ ∧ pool' = { pool with
        permits := pool.permits + 1
        calls := before ++ after
        guards := pool.guards ++ [id] }) ∨
      (call.progress = .refused ∧ out = none ∧ pool' = { pool with
        permits := pool.permits + 1
        calls := before ++ { call with progress := .restored } :: after }) ∨
      (call.progress = .restored ∧ out = some ⟨call.number, none⟩ ∧ pool' = { pool with
        permits := pool.permits + 1
        calls := before ++ after })) := by
  simp only [step] at moved
  split at moved
  · cases moved
  · rename_i call held
    obtain ⟨before, after, split, replaced, removed⟩ := exists_split held
    refine ⟨before, call, after, split, ?_⟩
    split at moved
    · cases moved
    · cases moved
    · rename_i id granted
      obtain ⟨rfl, rfl⟩ := Prod.mk.inj (Option.some.inj moved)
      exact .inl ⟨id, granted, rfl, by rw [removed]⟩
    · rename_i refused
      obtain ⟨rfl, rfl⟩ := Prod.mk.inj (Option.some.inj moved)
      exact .inr (.inl ⟨refused, rfl, by rw [advance, replaced]⟩)
    · rename_i restored
      obtain ⟨rfl, rfl⟩ := Prod.mk.inj (Option.some.inj moved)
      exact .inr (.inr ⟨restored, rfl, by rw [removed]⟩)

theorem drop_cases (moved : step pool (.drop i) = some (pool', out)) :
    ∃ before id after, pool.guards = before ++ id :: after ∧ out = none ∧ pool' = { pool with
      guards := before ++ after
      dropped := pool.dropped ++ [id] } := by
  simp only [step] at moved
  split at moved
  · cases moved
  · rename_i id held
    obtain ⟨before, after, split, -, removed⟩ := exists_split held
    obtain ⟨rfl, rfl⟩ := Prod.mk.inj (Option.some.inj moved)
    exact ⟨before, id, after, split, rfl, by rw [removed]⟩

theorem free_cases (moved : step pool (.free i) = some (pool', out)) :
    ∃ before id after, pool.dropped = before ++ id :: after ∧ out = none ∧ pool' = { pool with
      slots := vacate id pool.slots
      dropped := before ++ after
      freed := pool.freed + 1 } := by
  simp only [step] at moved
  split at moved
  · cases moved
  · rename_i id held
    obtain ⟨before, after, split, -, removed⟩ := exists_split held
    obtain ⟨rfl, rfl⟩ := Prod.mk.inj (Option.some.inj moved)
    exact ⟨before, id, after, split, rfl, by rw [removed]⟩

theorem credit_cases (moved : step pool .credit = some (pool', out)) :
    0 < pool.freed ∧ out = none ∧
      pool' = { pool with permits := pool.permits + 1, freed := pool.freed - 1 } := by
  simp only [step] at moved
  split at moved
  · rename_i owed
    obtain ⟨rfl, rfl⟩ := Prod.mk.inj (Option.some.inj moved)
    exact ⟨owed, rfl, rfl⟩
  · cases moved

end

/-! ### What every step keeps -/

/-- What is held, one call apart. -/
theorem holders_split (split : pool.calls = before ++ call :: after) :
    pool.holders.Perm (call.progress.slot.toList ++
      ((before ++ after).filterMap (fun call => call.progress.slot) ++ pool.guards ++ pool.dropped)) := by
  rw [holders, split]
  cases held : call.progress.slot with
  | none => simp [held]
  | some id => simp [held, List.perm_middle]

theorem Kept.step [LE F] [DecidableLE F] (kept : Kept numSlots pool)
    (moved : step pool a = some (pool', out)) : Kept numSlots pool' := by
  cases a with
  | call request taskId =>
    obtain ⟨rfl, -⟩ := Prod.mk.inj (Option.some.inj moved)
    exact kept.of_perm rfl (by simp [holders, Progress.slot])
  | permit i =>
    obtain ⟨before, call, after, split, waiting, -, -, rfl⟩ := permit_cases moved
    have base := holders_split split
    rw [waiting] at base
    exact kept.of_perm rfl ((holders_split rfl).trans base.symm)
  | search i =>
    obtain ⟨before, call, after, -, split, searching, -, ⟨id, slots, taken, rfl⟩ | ⟨-, rfl⟩⟩ :=
      search_cases moved
    · have base := holders_split split
      rw [searching] at base
      refine kept.occupy taken (List.Perm.trans (holders_split rfl) ?_)
      exact base.symm.cons id
    · have base := holders_split split
      rw [searching] at base
      exact kept.of_perm rfl ((holders_split rfl).trans base.symm)
  | giveBack i =>
    obtain ⟨before, call, after, split, cases_⟩ := giveBack_cases moved
    have base := holders_split split
    obtain ⟨id, granted, -, rfl⟩ | ⟨refused, -, rfl⟩ | ⟨restored, -, rfl⟩ := cases_
    · rw [granted] at base
      refine kept.of_perm rfl (List.Perm.trans ?_ base.symm)
      simp only [holders, ← List.append_assoc]
      rw [List.append_assoc _ [id]]
      exact List.perm_middle
    · rw [refused] at base
      exact kept.of_perm rfl ((holders_split rfl).trans base.symm)
    · rw [restored] at base
      exact kept.of_perm rfl base.symm
  | drop i =>
    obtain ⟨before, id, after, split, -, rfl⟩ := drop_cases moved
    refine kept.of_perm rfl ?_
    simp only [holders, split, List.append_assoc]
    refine List.Perm.append_left _ (List.Perm.append_left _ ?_)
    rw [← List.append_assoc]
    exact List.perm_append_singleton id _
  | free i =>
    obtain ⟨before, id, after, split, -, rfl⟩ := free_cases moved
    refine kept.vacate rfl ?_
    simp only [holders, split, ← List.append_assoc]
    exact List.perm_middle
  | credit =>
    obtain ⟨-, -, rfl⟩ := credit_cases moved
    exact kept.of_perm rfl (List.Perm.refl _)

theorem kept_of_run [LE F] [DecidableLE F]
    (run : Run (machine F) (withCapacity numSlots capacity) history pool) : Kept numSlots pool := by
  refine run.invariant ?_ fun pool a pool' out kept moved => kept.step moved
  refine ⟨?_, List.nodup_nil, by simp [holders, withCapacity], ?_⟩
  · simp [withCapacity, Function.comp_def]
  · intro slot member
    obtain ⟨i, -, rfl⟩ := List.mem_map.mp member
    simp [holders, withCapacity]

end SlotPool
end Roboflow.Executor
