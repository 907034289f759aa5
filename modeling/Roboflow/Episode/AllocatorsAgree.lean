import Roboflow.Episode.LocalAllocator

/-! When the two allocators answer alike. The counter in TiKV only moves when a
call is served; the local counter moves by what each call asks for, served or
not. The first refused call therefore takes them apart, and from then on they
agree only on calls that both refuse. -/
namespace Roboflow.Episode
open Library

/-! ### What each allocator does in one call -/

section
variable {perChunk start count : Nat}

theorem allocateRange_not_failed : (allocateRange perChunk start count : Answer Unit) ≠ .failed () := by
  unfold allocateRange
  split <;> simp

theorem allocateRange_result :
    (allocateRange perChunk start count : Answer ε).result = allocateRange perChunk start count := by
  unfold allocateRange
  split <;> rfl

theorem allocateRange_zero : (allocateRange perChunk start 0 : Answer ε) = .allocated [] := rfl

/-- A range with an index in it is never answered by no allocation. -/
theorem allocateRange_ne_nil (some : 0 < count) :
    (allocateRange perChunk start count : Answer Unit) ≠ .allocated [] := by
  intro empty
  unfold allocateRange at empty
  split at empty
  · rename_i granted made
    obtain rfl := Answer.allocated.inj empty
    have length := congrArg List.length (indices_of_mapM made)
    simp only [List.map_nil, List.length_nil, List.length_range'] at length
    omega
  · cases empty

theorem allocateRange_panicked :
    (allocateRange perChunk start count : Answer Unit) = .panicked ↔ perChunk = 0 ∧ 0 < count := by
  cases count with
  | zero => simp [allocateRange_zero]
  | succ count =>
    by_cases empty : perChunk = 0
    · simp [allocateRange, EpisodeAllocation.new, empty, List.range'_succ]
    · have room : 0 < perChunk := by omega
      obtain ⟨granted, made⟩ := Option.isSome_iff_exists.mp
        (mapM_isSome room (List.range' start (count + 1)))
      simp [allocateRange, made, empty]

end

theorem result_unit (answer : Answer Unit) : answer.result = answer := by
  cases answer <;> rfl

/-- An allocator that hands out the next indices while they stay within its limit. -/
def serve (allocator : Allocator) (taken : Nat) (call : Call) : Nat × Answer Unit :=
  match call with
  | .allocatedCount => (taken, .counted taken)
  | call =>
    if call.count = 0 then (taken, .allocated [])
    else if taken + call.count ≤ allocator.maxEpisodes then
      (taken + call.count, allocateRange allocator.episodesPerChunk taken call.count)
    else (taken, .failed ())

section
variable {allocator : Allocator} {taken : Nat} {call : Call}

theorem serve_within (asks : 0 < call.count) (fits : taken + call.count ≤ allocator.maxEpisodes) :
    serve allocator taken call =
      (taken + call.count, allocateRange allocator.episodesPerChunk taken call.count) := by
  have some : call.count ≠ 0 := by omega
  cases call with
  | allocatedCount => cases asks
  | _ => simp [serve, some, fits]

theorem serve_past (asks : 0 < call.count) (past : allocator.maxEpisodes < taken + call.count) :
    serve allocator taken call = (taken, .failed ()) := by
  have some : call.count ≠ 0 := by omega
  have refused : ¬ taken + call.count ≤ allocator.maxEpisodes := by omega
  cases call with
  | allocatedCount => cases asks
  | _ => simp [serve, some, refused]

end

/-- The indices handed out according to the stored counter. -/
def storedCount (stored : Option EpisodeCounter) : Nat := (stored.map (·.nextEpisode)).getD 0

namespace TikvAllocator

theorem retry_eq (allocator : Allocator) (count : Nat) (stored : Option EpisodeCounter) :
    (retry allocator count maxAttempts stored).2 =
        (if storedCount stored + count ≤ allocator.maxEpisodes then .ok (storedCount stored)
        else .error (.overflow allocator.maxEpisodes)) ∧
      storedCount (retry allocator count maxAttempts stored).1 =
        if storedCount stored + count ≤ allocator.maxEpisodes then storedCount stored + count
        else storedCount stored := by
  obtain ⟨version, initialized⟩ := ensureInitialized_some stored
  have limit := allocator.maxFits
  cases advanced : advance ⟨storedCount stored, version⟩ count allocator.maxEpisodes with
  | none =>
    have past : ¬ storedCount stored + count ≤ allocator.maxEpisodes := by
      intro fits
      have small : ¬ 2 ^ 64 ≤ storedCount stored + count := by omega
      have within : ¬ allocator.maxEpisodes < storedCount stored + count := by omega
      simp only [advance, if_neg small, if_neg within] at advanced
      cases advanced
    rw [retry_refused initialized advanced, if_neg past, if_neg past]
    exact ⟨rfl, rfl⟩
  | some next =>
    obtain ⟨rfl, fits, -⟩ := advance_some advanced
    rw [retry_swapped initialized advanced, if_pos fits, if_pos fits]
    exact ⟨rfl, rfl⟩

/-- One allocator on its own serves calls by the counter it has stored. -/
theorem perform_serves (allocator : Allocator) (stored : Option EpisodeCounter) (call : Call) :
    storedCount (perform allocator stored call).1 = (serve allocator (storedCount stored) call).1 ∧
      (perform allocator stored call).2.result = (serve allocator (storedCount stored) call).2 := by
  have asked : ∀ count, call.count = count → 0 < count →
      storedCount (retry allocator count maxAttempts stored).1 =
          (serve allocator (storedCount stored) call).1 ∧
        (grant allocator count (retry allocator count maxAttempts stored).2).result =
          (serve allocator (storedCount stored) call).2 := by
    rintro count rfl asks
    obtain ⟨result, after⟩ := retry_eq allocator call.count stored
    by_cases fits : storedCount stored + call.count ≤ allocator.maxEpisodes
    · rw [result, after, serve_within asks fits, if_pos fits, if_pos fits]
      exact ⟨rfl, allocateRange_result⟩
    · rw [result, after, serve_past asks (by omega), if_neg fits, if_neg fits]
      exact ⟨rfl, rfl⟩
  cases call with
  | allocate => exact asked 1 rfl Nat.one_pos
  | allocateBatch count =>
    by_cases nothing : count.val = 0
    · simp [perform, serve, Call.count, nothing, Answer.result]
    · simp only [perform, if_neg nothing]
      exact asked count rfl (by omega)
  | allocatedCount => exact ⟨rfl, rfl⟩

theorem answers_serve (allocator : Allocator) (stored : Option EpisodeCounter) (calls : List Call) :
    answers (perform allocator) stored calls = answers (serve allocator) (storedCount stored) calls := by
  induction calls generalizing stored with
  | nil => rfl
  | cons call rest ih =>
    obtain ⟨after, same⟩ := perform_serves allocator stored call
    simp only [answers, ih, after, same, result_unit]

end TikvAllocator

/-! ### Where the counters drift apart -/

/-- The episodes asked for by a sequence of calls, served or not. -/
def requested (calls : List Call) : Nat := (calls.map Call.count).sum

/-- A call that takes nothing from an allocator that has handed out `taken`, nor from one
that counts all of `asked` and wraps around. A count must be the same in both. -/
def PastLimit (limit taken asked : Nat) : Call → Prop
  | .allocate => limit ≤ taken ∧ limit ≤ asked % 2 ^ 64
  | .allocateBatch count => count.val = 0 ∨
      limit < taken + count ∧ limit < (asked + count) % 2 ^ 64
  | .allocatedCount => asked % 2 ^ 64 = taken

def AllPast (limit taken : Nat) : (asked : Nat) → List Call → Prop
  | _, [] => True
  | asked, call :: rest =>
    PastLimit limit taken asked call ∧ AllPast limit taken (asked + call.count) rest

/-- The calls first ask for no more than the limit in total, and afterwards only beyond it.
With empty chunks the first served call panics and nothing comes after it. -/
def StayInStep (allocator : Allocator) (calls : List Call) : Prop :=
  ∃ fit late, calls = fit ++ late ∧ requested fit ≤ allocator.maxEpisodes ∧
    (allocator.episodesPerChunk = 0 ∧ 0 < requested fit ∨
      AllPast allocator.maxEpisodes (requested fit) (requested fit) late)

section
variable {allocator : Allocator} {taken asked : Nat} {call : Call}

/-- Once the local counter is out of range, or the call goes beyond the limit, or asks for
nothing, the same answer means that neither allocator serves it. -/
theorem same_answer_iff (taken_le : taken ≤ allocator.maxEpisodes)
    (drifted : allocator.maxEpisodes < asked % 2 ^ 64 ∨
      allocator.maxEpisodes < taken + call.count ∨ call.count = 0) :
    (serve allocator taken call).2 = (LocalAllocator.perform allocator (asked % 2 ^ 64) call).2.result ↔
      PastLimit allocator.maxEpisodes taken asked call := by
  cases call with
  | allocate =>
    simp only [LocalAllocator.perform, PastLimit, Call.count] at drifted ⊢
    have asks : 0 < Call.allocate.count := Nat.one_pos
    by_cases fits : taken + 1 ≤ allocator.maxEpisodes
    · rw [serve_within asks fits, if_pos (by omega)]
      exact iff_of_false allocateRange_not_failed (by omega)
    · have past : allocator.maxEpisodes < taken + Call.allocate.count := Nat.lt_of_not_le fits
      rw [serve_past asks past]
      split
      · simp only [Answer.result, true_iff]
        omega
      · rw [allocateRange_result]
        exact iff_of_false allocateRange_not_failed.symm (by omega)
  | allocateBatch count =>
    simp only [LocalAllocator.perform, PastLimit, Call.count] at drifted ⊢
    by_cases nothing : count.val = 0
    · simp [serve, Call.count, nothing, Answer.result]
    have asks : 0 < (Call.allocateBatch count).count := Nat.pos_of_ne_zero nothing
    simp only [nothing, false_or, ↓reduceIte]
    by_cases fits : taken + count ≤ allocator.maxEpisodes
    · rw [serve_within asks fits]
      refine iff_of_false ?_ (by omega)
      split
      · exact allocateRange_not_failed
      · -- the local counter has wrapped around, and its range is empty
        have wrapped : (asked % 2 ^ 64 + count) % 2 ^ 64 - asked % 2 ^ 64 = 0 := by omega
        rw [wrapped, allocateRange_zero]
        exact allocateRange_ne_nil asks
    · have past : allocator.maxEpisodes < taken + (Call.allocateBatch count).count :=
        Nat.lt_of_not_le fits
      rw [serve_past asks past]
      split
      · simp only [Answer.result, true_iff]
        omega
      · rw [allocateRange_result]
        exact iff_of_false allocateRange_not_failed.symm (by omega)
  | allocatedCount =>
    simp only [serve, LocalAllocator.perform, Answer.result, PastLimit, Answer.counted.injEq]
    exact eq_comm

/-- A call that neither allocator serves. -/
theorem past_step (past : PastLimit allocator.maxEpisodes taken asked call) :
    (serve allocator taken call).1 = taken ∧ (serve allocator taken call).2 ≠ .panicked := by
  cases call with
  | allocate =>
    have asks : 0 < Call.allocate.count := Nat.one_pos
    have beyond : allocator.maxEpisodes < taken + Call.allocate.count := Nat.lt_succ_of_le past.1
    rw [serve_past asks beyond]
    simp
  | allocateBatch count =>
    by_cases nothing : count.val = 0
    · simp [serve, Call.count, nothing]
    · have asks : 0 < (Call.allocateBatch count).count := Nat.pos_of_ne_zero nothing
      have beyond := (past.resolve_left nothing).1
      rw [serve_past asks beyond]
      simp
  | allocatedCount => simp [serve]

/-- Served or not, a call moves the local counter by what it asks for. -/
theorem local_counter (call : Call) :
    (LocalAllocator.perform allocator (asked % 2 ^ 64) call).1 = (asked + call.count) % 2 ^ 64 := by
  cases call with
  | allocate =>
    simp only [LocalAllocator.perform, LocalAllocator.fetchAdd, Call.count]
    omega
  | allocateBatch count =>
    simp only [LocalAllocator.perform, LocalAllocator.fetchAdd, Call.count]
    split <;> omega
  | allocatedCount => rfl

/-- The local counter stays out of range while both refuse, unless nothing is left to serve. -/
theorem drifted_after (past : PastLimit allocator.maxEpisodes taken asked call)
    (drifted : allocator.maxEpisodes < asked % 2 ^ 64 ∨ allocator.maxEpisodes < taken + call.count ∨
      taken = allocator.maxEpisodes) (taken_le : taken ≤ allocator.maxEpisodes) :
    allocator.maxEpisodes < (asked + call.count) % 2 ^ 64 ∨ taken = allocator.maxEpisodes := by
  cases call with
  | allocate =>
    have := past.1
    omega
  | allocateBatch count =>
    simp only [PastLimit, Call.count] at past drifted ⊢
    omega
  | allocatedCount =>
    simp only [PastLimit, Call.count] at past drifted ⊢
    omega

/-- A call answered alike that neither allocator serves leaves the rest to be answered alike. -/
theorem answers_past_iff (asked : Nat) (taken_le : taken ≤ allocator.maxEpisodes)
    (drifted : allocator.maxEpisodes < asked % 2 ^ 64 ∨
      allocator.maxEpisodes < taken + call.count ∨ call.count = 0) (rest : List Call) :
    answers (serve allocator) taken (call :: rest) =
        answers (LocalAllocator.perform allocator) (asked % 2 ^ 64) (call :: rest) ↔
      PastLimit allocator.maxEpisodes taken asked call ∧
        answers (serve allocator) taken rest =
          answers (LocalAllocator.perform allocator) ((asked + call.count) % 2 ^ 64) rest := by
  have same := same_answer_iff taken_le drifted
  simp only [answers, List.cons.injEq, result_unit]
  constructor
  · rintro ⟨head, tail⟩
    have past := same.mp head
    obtain ⟨kept, calm⟩ := past_step past
    rw [← head, if_neg calm, if_neg calm, kept, local_counter] at tail
    exact ⟨past, tail⟩
  · rintro ⟨past, tail⟩
    have head := same.mpr past
    obtain ⟨kept, calm⟩ := past_step past
    refine ⟨head, ?_⟩
    rw [← head, if_neg calm, if_neg calm, kept, local_counter]
    exact tail

theorem answers_late_iff (taken_le : taken ≤ allocator.maxEpisodes)
    (drifted : allocator.maxEpisodes < asked % 2 ^ 64 ∨ taken = allocator.maxEpisodes)
    (calls : List Call) :
    answers (serve allocator) taken calls =
        answers (LocalAllocator.perform allocator) (asked % 2 ^ 64) calls ↔
      AllPast allocator.maxEpisodes taken asked calls := by
  induction calls generalizing asked with
  | nil => simp [answers, AllPast]
  | cons call rest ih =>
    rw [answers_past_iff asked taken_le (by omega), AllPast]
    apply and_congr_right
    intro past
    exact ih (drifted_after past (by omega) taken_le)

/-- While everything asked for has been served, the two counters are the same. -/
theorem same_step (fits : taken + call.count ≤ allocator.maxEpisodes) :
    (LocalAllocator.perform allocator taken call).2.result = (serve allocator taken call).2 ∧
      (LocalAllocator.perform allocator taken call).1 = taken + call.count ∧
      (serve allocator taken call).1 = taken + call.count := by
  have limit := allocator.maxFits
  cases call with
  | allocate =>
    have asks : 0 < Call.allocate.count := Nat.one_pos
    simp only [Call.count] at fits
    rw [serve_within asks fits]
    simp only [LocalAllocator.perform, LocalAllocator.fetchAdd, Call.count]
    rw [if_neg (by omega), allocateRange_result]
    exact ⟨rfl, by omega, trivial⟩
  | allocateBatch count =>
    simp only [Call.count] at fits
    by_cases nothing : count.val = 0
    · simp [LocalAllocator.perform, serve, Call.count, nothing, Answer.result]
    · have asks : 0 < (Call.allocateBatch count).count := Nat.pos_of_ne_zero nothing
      have stop : (taken + count) % 2 ^ 64 = taken + count := Nat.mod_eq_of_lt (by omega)
      rw [serve_within asks fits]
      simp only [LocalAllocator.perform, LocalAllocator.fetchAdd, Call.count, nothing, ↓reduceIte,
        stop, Nat.add_sub_cancel_left]
      rw [if_neg (by omega), allocateRange_result]
      exact ⟨rfl, trivial, trivial⟩
  | allocatedCount => exact ⟨rfl, rfl, rfl⟩

theorem serve_panicked (fits : taken + call.count ≤ allocator.maxEpisodes) :
    (serve allocator taken call).2 = .panicked ↔ allocator.episodesPerChunk = 0 ∧ 0 < call.count := by
  by_cases asks : 0 < call.count
  · rw [serve_within asks fits, allocateRange_panicked]
  · refine iff_of_false ?_ (by omega)
    cases call with
    | allocate => exact absurd Nat.one_pos asks
    | allocateBatch count =>
      have nothing : count.val = 0 := Nat.eq_zero_of_not_pos asks
      simp [serve, Call.count, nothing]
    | allocatedCount => simp [serve]

theorem requested_cons (call : Call) (rest : List Call) :
    requested (call :: rest) = call.count + requested rest := by
  simp [requested]

/-- The condition, from a point where both allocators have handed out the same. -/
def InStepFrom (allocator : Allocator) (taken : Nat) (calls : List Call) : Prop :=
  ∃ fit late, calls = fit ++ late ∧ taken + requested fit ≤ allocator.maxEpisodes ∧
    (allocator.episodesPerChunk = 0 ∧ 0 < requested fit ∨
      AllPast allocator.maxEpisodes (taken + requested fit) (taken + requested fit) late)

/-- A call within the limit is served by both, and decides nothing unless it panics. -/
theorem inStepFrom_within (fits : taken + call.count ≤ allocator.maxEpisodes) (rest : List Call) :
    InStepFrom allocator taken (call :: rest) ↔
      (serve allocator taken call).2 = .panicked ∨
        InStepFrom allocator (taken + call.count) rest := by
  rw [serve_panicked fits]
  constructor
  · rintro ⟨fit, late, split, total, outcome⟩
    cases fit with
    | nil =>
      -- nothing is past the limit at this call, so it asks for nothing
      obtain rfl : call :: rest = late := split
      obtain ⟨-, absurd⟩ | ⟨past, others⟩ := outcome
      · cases absurd
      · have nothing : call.count = 0 := by
          cases call with
          | allocate =>
            have := past.1
            simp only [requested, Call.count, List.map_nil, List.sum_nil] at this fits
            omega
          | allocateBatch count =>
            rcases past with nothing | ⟨beyond, -⟩
            · exact nothing
            · simp only [requested, Call.count, List.map_nil, List.sum_nil] at beyond fits
              omega
          | allocatedCount => rfl
        rw [nothing] at others ⊢
        exact .inr ⟨[], rest, rfl, total, .inr others⟩
    | cons first fit =>
      obtain ⟨rfl, rfl⟩ := List.cons.inj split
      rw [requested_cons] at total outcome
      by_cases panics : allocator.episodesPerChunk = 0 ∧ 0 < call.count
      · exact .inl panics
      · refine .inr ⟨fit, late, rfl, by omega, ?_⟩
        rw [Nat.add_assoc]
        refine outcome.imp_left ?_
        intro stops
        exact ⟨stops.1, by omega⟩
  · rintro (panics | ⟨fit, late, rfl, total, outcome⟩)
    · refine ⟨[call], rest, rfl, ?_, .inl ⟨panics.1, ?_⟩⟩
      · simpa [requested] using fits
      · simpa [requested] using panics.2
    · refine ⟨call :: fit, late, rfl, ?_, ?_⟩
      · rw [requested_cons]
        omega
      · rw [requested_cons, ← Nat.add_assoc]
        refine outcome.imp_left ?_
        intro stops
        exact ⟨stops.1, by omega⟩

/-- A call beyond the limit can only begin the late part. -/
theorem inStepFrom_past (taken_le : taken ≤ allocator.maxEpisodes)
    (beyond : allocator.maxEpisodes < taken + call.count) (rest : List Call) :
    InStepFrom allocator taken (call :: rest) ↔
      AllPast allocator.maxEpisodes taken taken (call :: rest) := by
  constructor
  · rintro ⟨fit, late, split, total, outcome⟩
    cases fit with
    | nil =>
      obtain rfl : call :: rest = late := split
      exact outcome.resolve_left fun stops => Nat.lt_irrefl 0 stops.2
    | cons first fit =>
      obtain ⟨rfl, -⟩ := List.cons.inj split
      rw [requested_cons] at total
      omega
  · intro past
    exact ⟨[], call :: rest, rfl, taken_le, .inr past⟩

theorem answers_inStep_iff (taken_le : taken ≤ allocator.maxEpisodes) (calls : List Call) :
    answers (serve allocator) taken calls = answers (LocalAllocator.perform allocator) taken calls ↔
      InStepFrom allocator taken calls := by
  have limit := allocator.maxFits
  induction calls generalizing taken with
  | nil => exact iff_of_true rfl ⟨[], [], rfl, taken_le, .inr trivial⟩
  | cons call rest ih =>
    by_cases fits : taken + call.count ≤ allocator.maxEpisodes
    · obtain ⟨same, moved, taken'⟩ := same_step fits
      rw [inStepFrom_within fits]
      refine Iff.trans ?_ (or_congr_right (ih fits))
      simp only [answers, result_unit, same, moved, taken', List.cons.injEq, true_and]
      by_cases panics : (serve allocator taken call).2 = .panicked
      · simp [panics]
      · simp [panics]
    · have beyond : allocator.maxEpisodes < taken + call.count := by omega
      have small : taken % 2 ^ 64 = taken := Nat.mod_eq_of_lt (by omega)
      have step := answers_past_iff taken taken_le (.inr (.inl beyond)) rest
      rw [small] at step
      rw [step, inStepFrom_past taken_le beyond, AllPast]
      apply and_congr_right
      intro past
      exact answers_late_iff taken_le (drifted_after past (.inr (.inl beyond)) taken_le) rest

end

/-- One allocator on a fresh batch and a local one answer a sequence of calls alike exactly
when no call asks for something after another has been refused, or all those are refused too. -/
theorem allocators_agree_iff (allocator : Allocator) (calls : List Call) :
    answers (TikvAllocator.perform allocator) none calls =
        answers (LocalAllocator.perform allocator) 0 calls ↔
      StayInStep allocator calls := by
  have within : 0 ≤ allocator.maxEpisodes := Nat.zero_le _
  have fresh := answers_inStep_iff within calls
  simp only [InStepFrom, Nat.zero_add] at fresh
  rw [TikvAllocator.answers_serve]
  exact fresh

/-- With five episodes allowed, a refused batch of ten leaves room for three; the local
allocator has counted the ten. -/
theorem refused_batch_counted : ¬ ∀ (allocator : Allocator) (calls : List Call),
    answers (TikvAllocator.perform allocator) none calls =
      answers (LocalAllocator.perform allocator) 0 calls := by
  intro agree
  have same := agree ⟨500, 5, by decide, by decide⟩
    [.allocateBatch 10, .allocateBatch 3, .allocatedCount]
  revert same
  decide

end Roboflow.Episode
