import Roboflow.Library.Machine
import Roboflow.Catalog.SegmentCatalog

/-! Concurrent calls of `TiKVPool::put_if_not_exists` on one key. The existence test and the write are
transactions of their own, each atomic on the latest committed state, so another call may do its test
between the two. Then both write and both return that they created the key. -/
namespace Roboflow.Catalog
open Library

/-! ### The calls and their steps -/

/-- Where a call stands: it has not read yet, it has found no value and is to write, it has returned. -/
inductive PutStage where
  | called
  | absent
  | returned (created : Bool)
  deriving DecidableEq, Repr

/-- One transaction of `TiKVPool::put_if_not_exists`. A call that has returned has none left. -/
def putIfNotExists (key value : Bytes) (store : Kv Bytes Bytes) :
    PutStage → Option (Kv Bytes Bytes × PutStage)
  | .called => if (store.get key).isSome then some (store, .returned false) else some (store, .absent)
  | .absent => some (store.put key value, .returned true)
  | .returned _ => none

/-- The store and every call. -/
structure PutCalls (ι : Type) where
  store : Kv Bytes Bytes
  stage : ι → PutStage

variable {ι : Type} [DecidableEq ι]

/-- One call has gone on. -/
def PutCalls.moved (s : PutCalls ι) (caller : ι) (store : Kv Bytes Bytes) (stage : PutStage) :
    PutCalls ι :=
  ⟨store, Function.update s.stage caller stage⟩

@[simp] theorem PutCalls.moved_store (s : PutCalls ι) (caller : ι) (store : Kv Bytes Bytes)
    (stage : PutStage) : (s.moved caller store stage).store = store := rfl

@[simp] theorem PutCalls.moved_self (s : PutCalls ι) (caller : ι) (store : Kv Bytes Bytes)
    (stage : PutStage) : (s.moved caller store stage).stage caller = stage :=
  Function.update_self ..

theorem PutCalls.moved_of_ne (s : PutCalls ι) {caller other : ι} (different : other ≠ caller)
    (store : Kv Bytes Bytes) (stage : PutStage) :
    (s.moved caller store stage).stage other = s.stage other :=
  Function.update_of_ne different ..

/-- The calls on a key, each with its value. An action names the call that takes its next step. -/
def putCalls (key : Bytes) (values : ι → Bytes) : Machine (PutCalls ι) ι Unit where
  step s caller :=
    (putIfNotExists key (values caller) s.store (s.stage caller)).map fun (store, stage) =>
      (s.moved caller store stage, ())

/-- All calls are made on a store. -/
def PutCalls.start (store : Kv Bytes Bytes) : PutCalls ι := ⟨store, fun _ => .called⟩

/-- Every call has returned. -/
def AllReturned (s : PutCalls ι) : Prop := ∀ caller, ∃ created, s.stage caller = .returned created

/-- One call created the key, and its value is the one that is stored. -/
def OneWinner (key : Bytes) (values : ι → Bytes) (s : PutCalls ι) : Prop :=
  ∃ winner, s.stage winner = .returned true ∧
    (∀ caller, s.stage caller = .returned true → caller = winner) ∧
    s.store.get key = some (values winner)

/-- A call reads only while no call is between its read and its write. -/
def ReadsAlone (s : PutCalls ι) (caller : ι) : Prop :=
  s.stage caller = .called → ∀ other, s.stage other ≠ .absent

instance [Fintype ι] (s : PutCalls ι) (caller : ι) : Decidable (ReadsAlone s caller) :=
  inferInstanceAs (Decidable (_ → _))

/-! ### One call after the other -/

/-- What the calls go through when no read falls between another call's read and its write. -/
inductive Serial (key : Bytes) (values : ι → Bytes) (s : PutCalls ι) : Prop where
  | fresh (free : s.store.get key = none) (called : ∀ caller, s.stage caller = .called)
  | claimed (winner : ι) (free : s.store.get key = none) (absent : s.stage winner = .absent)
      (others : ∀ caller, caller ≠ winner → s.stage caller = .called)
  | won (winner : ι) (stored : s.store.get key = some (values winner))
      (created : s.stage winner = .returned true)
      (others : ∀ caller, caller ≠ winner →
        s.stage caller = .called ∨ s.stage caller = .returned false)

/-- The call has found no value: it is to write or has written. -/
def Claims (s : PutCalls ι) (caller : ι) : Prop :=
  s.stage caller = .absent ∨ s.stage caller = .returned true

/-- Two calls have found no value. -/
def Contended (s : PutCalls ι) : Prop :=
  ∃ first second, first ≠ second ∧ Claims s first ∧ Claims s second

variable {key : Bytes} {values : ι → Bytes} {s s' : PutCalls ι} {caller : ι} {out : Unit}

/-- A read that finds a value, a read that finds none, a write. -/
theorem putCalls_cases (moved : (putCalls key values).step s caller = some (s', out)) :
    (s.stage caller = .called ∧ (∃ value, s.store.get key = some value) ∧
      s' = s.moved caller s.store (.returned false)) ∨
    (s.stage caller = .called ∧ s.store.get key = none ∧
      s' = s.moved caller s.store .absent) ∨
    (s.stage caller = .absent ∧
      s' = s.moved caller (s.store.put key (values caller)) (.returned true)) := by
  obtain ⟨⟨store, stage⟩, stepped, same⟩ := Option.map_eq_some_iff.mp moved
  obtain ⟨rfl, -⟩ := Prod.mk.inj same
  cases at_ : s.stage caller with
  | called =>
    rw [at_] at stepped
    simp only [putIfNotExists] at stepped
    cases held : s.store.get key with
    | none =>
      rw [held] at stepped
      obtain ⟨rfl, rfl⟩ := Prod.mk.inj (Option.some.inj stepped)
      exact .inr (.inl ⟨rfl, rfl, rfl⟩)
    | some value =>
      rw [held] at stepped
      obtain ⟨rfl, rfl⟩ := Prod.mk.inj (Option.some.inj stepped)
      exact .inl ⟨rfl, ⟨value, rfl⟩, rfl⟩
  | absent =>
    rw [at_] at stepped
    obtain ⟨rfl, rfl⟩ := Prod.mk.inj (Option.some.inj stepped)
    exact .inr (.inr ⟨rfl, rfl⟩)
  | returned created =>
    rw [at_] at stepped
    cases stepped

theorem Claims.step (claims : Claims s first)
    (moved : (putCalls key values).step s caller = some (s', out)) : Claims s' first := by
  by_cases same : first = caller
  · subst same
    rcases putCalls_cases moved with ⟨called, -, -⟩ | ⟨called, -, -⟩ | ⟨-, rfl⟩
    · rcases claims with absent | created <;> simp_all
    · rcases claims with absent | created <;> simp_all
    · exact .inr (s.moved_self ..)
  · have kept : s'.stage first = s.stage first := by
      rcases putCalls_cases moved with ⟨-, -, rfl⟩ | ⟨-, -, rfl⟩ | ⟨-, rfl⟩ <;>
        exact s.moved_of_ne same ..
    unfold Claims
    rw [kept]
    exact claims

/-- Once two calls have found no value it stays so. -/
theorem Contended.step (contended : Contended s)
    (moved : (putCalls key values).step s caller = some (s', out)) : Contended s' := by
  obtain ⟨first, second, different, one, two⟩ := contended
  exact ⟨first, second, different, one.step moved, two.step moved⟩

/-- A step out of the order is a second call that finds no value. -/
theorem Serial.contended (serial : Serial key values s)
    (moved : (putCalls key values).step s caller = some (s', out)) (among : ¬ReadsAlone s caller) :
    Contended s' := by
  obtain ⟨called, between⟩ := Classical.not_imp.mp among
  obtain ⟨other, absent⟩ := not_forall_not.mp between
  have different : other ≠ caller := by
    rintro rfl
    rw [called] at absent
    cases absent
  cases serial with
  | fresh free all =>
    rw [all] at absent
    cases absent
  | won winner stored created others =>
    by_cases same : other = winner
    · rw [same, created] at absent
      cases absent
    · rcases others other same with stage | stage <;> rw [stage] at absent <;> cases absent
  | claimed winner free holds others =>
    have claims : Claims s' other := Claims.step (.inl absent) moved
    rcases putCalls_cases moved with ⟨-, ⟨value, held⟩, -⟩ | ⟨-, -, rfl⟩ | ⟨writes, -⟩
    · rw [free] at held
      cases held
    · exact ⟨other, caller, different, claims, .inl (Function.update_self ..)⟩
    · rw [called] at writes
      cases writes

theorem Serial.step (serial : Serial key values s)
    (moved : (putCalls key values).step s caller = some (s', out)) (alone : ReadsAlone s caller) :
    Serial key values s' := by
  cases serial with
  | fresh free all =>
    rcases putCalls_cases moved with ⟨-, ⟨value, held⟩, -⟩ | ⟨-, -, rfl⟩ | ⟨writes, -⟩
    · rw [free] at held
      cases held
    · refine .claimed caller free (s.moved_self ..) fun other different => ?_
      rw [s.moved_of_ne different, all]
    · rw [all] at writes
      cases writes
  | claimed winner free absent others =>
    have same : caller = winner := by
      by_contra different
      exact alone (others caller different) winner absent
    subst same
    rcases putCalls_cases moved with ⟨called, -, -⟩ | ⟨called, -, -⟩ | ⟨-, rfl⟩
    · rw [called] at absent
      cases absent
    · rw [called] at absent
      cases absent
    · refine .won caller (Kv.get_put_self ..) (s.moved_self ..) fun other different => ?_
      rw [s.moved_of_ne different, others other different]
      exact .inl rfl
  | won winner stored created others =>
    have different : caller ≠ winner := by
      rintro rfl
      rcases putCalls_cases moved with ⟨called, -, -⟩ | ⟨called, -, -⟩ | ⟨absent, -⟩ <;> simp_all
    rcases putCalls_cases moved with ⟨-, -, rfl⟩ | ⟨-, free, -⟩ | ⟨absent, -⟩
    · refine .won winner stored ?_ fun other apart => ?_
      · rw [s.moved_of_ne different.symm]
        exact created
      · by_cases same : other = caller
        · rw [same, s.moved_self]
          exact .inr rfl
        · rw [s.moved_of_ne same]
          exact others other apart
    · rw [stored] at free
      cases free
    · rcases others caller different with stage | stage <;> rw [stage] at absent <;> cases absent

/-! ### Whole runs -/

variable {store : Kv Bytes Bytes} {history : History (PutCalls ι) ι Unit}

/-- A run keeps to the order in every step, or two calls have found no value. -/
theorem serial_or_contended (free : store.get key = none)
    (run : Run (putCalls key values) (.start store) history s) :
    (Serial key values s ∧ ∀ e ∈ history, ReadsAlone e.pre e.act) ∨
      (Contended s ∧ ¬∀ e ∈ history, ReadsAlone e.pre e.act) := by
  induction run with
  | start => exact .inl ⟨.fresh free fun _ => rfl, List.forall_mem_nil _⟩
  | @next history s caller s' out before moved ih =>
    rw [List.forall_mem_cons]
    rcases ih with ⟨serial, met⟩ | ⟨contended, unmet⟩
    · by_cases alone : ReadsAlone s caller
      · exact .inl ⟨serial.step moved alone, alone, met⟩
      · exact .inr ⟨serial.contended moved alone, fun all => alone all.1⟩
    · exact .inr ⟨contended.step moved, fun all => unmet all.2⟩

omit [DecidableEq ι] in
theorem Claims.created (claims : Claims s caller) (returned : AllReturned s) :
    s.stage caller = .returned true := by
  apply claims.resolve_left
  intro absent
  obtain ⟨created, stage⟩ := returned caller
  rw [absent] at stage
  cases stage

omit [DecidableEq ι] in
theorem Contended.not_oneWinner (contended : Contended s) (returned : AllReturned s) :
    ¬OneWinner key values s := by
  rintro ⟨winner, -, only, -⟩
  obtain ⟨first, second, different, one, two⟩ := contended
  apply different
  rw [only first (one.created returned), only second (two.created returned)]

omit [DecidableEq ι] in
theorem Serial.oneWinner [Nonempty ι] (serial : Serial key values s) (returned : AllReturned s) :
    OneWinner key values s := by
  cases serial with
  | fresh _ called =>
    obtain ⟨created, stage⟩ := returned (Classical.arbitrary ι)
    rw [called] at stage
    cases stage
  | claimed winner _ absent _ =>
    obtain ⟨created, stage⟩ := returned winner
    rw [absent] at stage
    cases stage
  | won winner stored created others =>
    refine ⟨winner, created, fun caller also => ?_, stored⟩
    by_contra different
    rcases others caller different with stage | stage <;> rw [stage] at also <;> cases also

/-- Of any calls on an absent key, in any order of their steps, exactly one creates the key and its
value is stored if and only if no call reads between another call's read and its write. -/
theorem one_winner_iff [Nonempty ι] (free : store.get key = none)
    (run : Run (putCalls key values) (.start store) history s) (returned : AllReturned s) :
    OneWinner key values s ↔ ∀ e ∈ history, ReadsAlone e.pre e.act := by
  rcases serial_or_contended free run with ⟨serial, met⟩ | ⟨contended, unmet⟩
  · exact iff_of_true (serial.oneWinner returned) met
  · exact iff_of_false (contended.not_oneWinner returned) unmet

/-! ### Two calls -/

/-- What the two calls supply. -/
def zeroOrOne (caller : Bool) : Bytes := if caller then [1] else [0]

/-- One call after the other. -/
theorem sequential_calls_one_winner :
    ∃ history s, Run (putCalls [107] zeroOrOne) (.start .empty) history s ∧
      s.stage true = .returned false ∧ OneWinner [107] zeroOrOne s := by
  obtain ⟨history, s, run, seen⟩ := Run.of_observation (putCalls [107] zeroOrOne) (.start .empty)
    [false, false, true] (fun reached => (reached.2.stage false, reached.2.stage true,
      reached.1.all fun e => decide (ReadsAlone e.pre e.act)))
    (.returned true, .returned false, true) (by decide)
  simp only [Prod.mk.injEq, List.all_eq_true, decide_eq_true_eq] at seen
  obtain ⟨first, second, alone⟩ := seen
  have returned : AllReturned s := by
    intro caller
    cases caller
    · exact ⟨_, first⟩
    · exact ⟨_, second⟩
  exact ⟨history, s, run, second, (one_winner_iff rfl run returned).mpr alone⟩

/-- Both calls read before either writes: both return that they created the key, and the value of the
one that writes last is stored. -/
theorem interleaved_calls_both_win :
    ∃ history s, Run (putCalls [107] zeroOrOne) (.start .empty) history s ∧ AllReturned s ∧
      s.stage false = .returned true ∧ s.stage true = .returned true ∧
      s.store.get [107] = some [1] ∧ ¬OneWinner [107] zeroOrOne s := by
  obtain ⟨history, s, run, seen⟩ := Run.of_observation (putCalls [107] zeroOrOne) (.start .empty)
    [false, true, false, true]
    (fun reached => (reached.2.stage false, reached.2.stage true, reached.2.store.get [107]))
    (.returned true, .returned true, some [1]) (by decide)
  simp only [Prod.mk.injEq] at seen
  obtain ⟨first, second, stored⟩ := seen
  refine ⟨history, s, run, fun caller => ?_, first, second, stored, ?_⟩
  · cases caller
    · exact ⟨_, first⟩
    · exact ⟨_, second⟩
  · rintro ⟨winner, -, only, -⟩
    have same : false = true := (only false first).trans (only true second).symm
    cases same

end Roboflow.Catalog
