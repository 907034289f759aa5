import Roboflow.Tikv.Lock

/-! Fencing tokens. The token of an acquisition is the version of the record it
leaves behind. Extending a record raises its version, but a record started anew
begins at one again, whatever tokens earlier owners of the key were given. -/
namespace Roboflow.Tikv
open Library

/-- The owner and the token of one granted acquisition of the resource. -/
def grant (resource : String) (e : Transition LockState LockAction Bool) : Option (String × Nat) :=
  match e.act.acquiring with
  | some (r, owner, _) =>
    if r = resource ∧ e.out = true then
      (e.post.locks.get resource).map fun record => (owner, record.fencingToken)
    else none
  | none => none

/-- The granted acquisitions of one resource, newest first. -/
def grants (resource : String) (history : LockHistory) : List (String × Nat) :=
  history.filterMap (grant resource)

/-- The owner for which a call starts a record: it finds the key free, or another
owner's record expired. -/
def startsRecord (resource : String) (e : Transition LockState LockAction Bool) : Option String :=
  match e.act.acquiring with
  | some (r, owner, _) =>
    if r = resource ∧ (e.pre.locks.get resource).all (fun existing =>
        !existing.isOwnedBy owner && existing.isExpired e.act.now) then some owner
    else none
  | none => none

/-- The owners of those calls, newest first. -/
def starters (resource : String) (history : LockHistory) : List String :=
  history.filterMap (startsRecord resource)

/-- Whenever an acquisition follows one by a different owner, its token exceeds
every token given before. -/
def Fenced : List (String × Nat) → Prop
  | [] => True
  | latest :: older =>
    (older.head?.any (fun previous => previous.1 ≠ latest.1) = true →
      ∀ earlier ∈ older, earlier.2 < latest.2) ∧ Fenced older

def OneOwner (given : List (String × Nat)) : Prop :=
  ∀ first ∈ given, ∀ second ∈ given, first.1 = second.1

/-- The lock never passes from one owner to another: all calls that find it free
or expired under another owner come from one owner. -/
def NeverPasses (resource : String) (history : LockHistory) : Prop :=
  ∀ first ∈ starters resource history, ∀ second ∈ starters resource history, first = second

/-- What the stored record and the tokens given so far have to do with each other. -/
structure TokenTrail (resource : String) (history : LockHistory) (s : LockState) : Prop where
  holder : ∀ record, s.locks.get resource = some record →
    ∃ token older, grants resource history = (record.owner, token) :: older
  first : grants resource history ≠ [] → ∃ earlier ∈ grants resource history, earlier.2 = 1
  fenced : Fenced (grants resource history) ↔ OneOwner (grants resource history)
  started : ∀ owner, (∃ token, (owner, token) ∈ grants resource history) ↔
    owner ∈ starters resource history

theorem grants_cons (resource : String) (e : Transition LockState LockAction Bool)
    (history : LockHistory) :
    grants resource (e :: history) =
      (grant resource e).toList ++ grants resource history := by
  cases granted : grant resource e <;> simp [grants, granted]

/-- Another grant to the last owner does not change whether the lock was passed on. -/
private theorem oneOwner_cons_same {older : List (String × Nat)} {previous : String × Nat}
    (head : older.head? = some previous) (token : Nat) :
    OneOwner ((previous.1, token) :: older) ↔ OneOwner older := by
  have member : previous ∈ older := List.mem_of_mem_head? (by simpa using head)
  constructor
  · intro one first firstIn second secondIn
    exact one first (List.mem_cons_of_mem _ firstIn) second (List.mem_cons_of_mem _ secondIn)
  · intro one first firstIn second secondIn
    have named : ∀ given ∈ (previous.1, token) :: older, given.1 = previous.1 := by
      intro given givenIn
      rcases List.mem_cons.mp givenIn with rfl | older
      · rfl
      · exact one given older previous member
    rw [named first firstIn, named second secondIn]

/-- A step that grants nothing and leaves the record alone, or removes it. -/
theorem TokenTrail.ungranted (trail : TokenTrail resource history s)
    (none : grant resource ⟨s, action, out, s'⟩ = none)
    (unstarted : startsRecord resource ⟨s, action, out, s'⟩ = .none)
    (kept : ∀ record, s'.locks.get resource = some record → s.locks.get resource = some record) :
    TokenTrail resource (⟨s, action, out, s'⟩ :: history) s' := by
  have same : grants resource (⟨s, action, out, s'⟩ :: history) = grants resource history := by
    simp [grants_cons, none]
  refine ⟨fun record found => ?_, ?_, ?_, fun owner => ?_⟩
  · rw [same]
    exact trail.holder record (kept record found)
  · rw [same]
    exact trail.first
  · rw [same]
    exact trail.fenced
  · rw [same, trail.started owner]
    simp [starters, unstarted]

/-- A grant either goes to the last owner, or starts over at one. -/
theorem TokenTrail.granted (trail : TokenTrail resource history s)
    (given : grant resource ⟨s, action, out, s'⟩ = some (owner, token))
    (stored : s'.locks.get resource = some record) (own : record.owner = owner)
    (fresh : (∃ existing, s.locks.get resource = some existing ∧ existing.owner = owner) ∧
        startsRecord resource ⟨s, action, out, s'⟩ = none ∨
      token = 1 ∧ startsRecord resource ⟨s, action, out, s'⟩ = some owner) :
    TokenTrail resource (⟨s, action, out, s'⟩ :: history) s' := by
  have extended : grants resource (⟨s, action, out, s'⟩ :: history) =
      (owner, token) :: grants resource history := by
    simp [grants_cons, given]
  refine ⟨fun other found => ?_, fun _ => ?_, ?_, fun who => ?_⟩
  · obtain rfl := Option.some.inj (stored.symm.trans found)
    exact ⟨token, grants resource history, by rw [extended, own]⟩
  · rw [extended]
    rcases fresh with ⟨⟨existing, present, -⟩, -⟩ | ⟨rfl, -⟩
    · obtain ⟨_, older, before⟩ := trail.holder existing present
      obtain ⟨earlier, member, one⟩ := trail.first (by simp [before])
      exact ⟨earlier, List.mem_cons_of_mem _ member, one⟩
    · exact ⟨_, List.mem_cons_self, rfl⟩
  · rw [extended]
    cases before : grants resource history with
    | nil => simp [Fenced, OneOwner]
    | cons previous older =>
      by_cases same : previous.1 = owner
      · subst same
        rw [oneOwner_cons_same (by rfl), ← before, ← trail.fenced]
        simp [Fenced, before]
      · have anew : token = 1 := by
          rcases fresh with ⟨⟨existing, present, was⟩, -⟩ | ⟨anew, -⟩
          · obtain ⟨_, _, head⟩ := trail.holder existing present
            rw [before] at head
            obtain ⟨rfl, -⟩ := List.cons.inj head
            exact absurd was same
          · exact anew
        obtain ⟨earlier, member, one⟩ := trail.first (by simp [before])
        rw [before] at member
        constructor
        · intro fenced
          have above := fenced.1 (by simp [same]) earlier member
          omega
        · intro one
          exact absurd (one previous (by simp) (owner, token) (by simp)) same
  · rw [extended]
    rcases fresh with ⟨⟨existing, present, was⟩, unstarted⟩ | ⟨-, starts⟩
    · have same : starters resource (⟨s, action, out, s'⟩ :: history) = starters resource history := by
        simp [starters, unstarted]
      obtain ⟨last, older, head⟩ := trail.holder existing present
      rw [same, ← trail.started who]
      constructor
      · rintro ⟨last', member⟩
        rcases List.mem_cons.mp member with latest | member
        · obtain ⟨rfl, -⟩ := Prod.mk.inj latest
          exact ⟨last, by rw [head, was]; exact List.mem_cons_self⟩
        · exact ⟨last', member⟩
      · rintro ⟨last', member⟩
        exact ⟨last', List.mem_cons_of_mem _ member⟩
    · have same : starters resource (⟨s, action, out, s'⟩ :: history) =
          owner :: starters resource history := by
        simp [starters, starts]
      rw [same, List.mem_cons, ← trail.started who]
      simp [exists_or]

/-- The acquiring transaction keeps the trail. -/
private theorem trail_of_acquire (trail : TokenTrail resource history s)
    (acquiring : action.acquiring = some (r, owner, ttl)) (reads : action.now = now)
    (locks : s'.locks = (acquireLock s.locks r owner ttl now).1)
    (answer : out = (acquireLock s.locks r owner ttl now).2) :
    TokenTrail resource (⟨s, action, out, s'⟩ :: history) s' := by
  by_cases here : r = resource
  · subst here
    have spec := acquireLock_spec s.locks r owner ttl now
    generalize acquireLock s.locks r owner ttl now = outcome at spec locks answer
    cases spec with
    | @extended existing present own =>
      have found : s'.locks.get r = some (existing.extend ttl now) := by rw [locks]; simp
      have given : grant r ⟨s, action, out, s'⟩ =
          some (owner, (existing.extend ttl now).fencingToken) := by
        simp [grant, acquiring, answer, found]
      refine trail.granted given found own (.inl ⟨⟨existing, present, own⟩, ?_⟩)
      simp [startsRecord, acquiring, present, LockRecord.isOwnedBy, own]
    | refused present foreign unexpired =>
      apply trail.ungranted
      · simp [grant, acquiring, answer]
      · simp [startsRecord, acquiring, present, LockRecord.isExpired, reads, unexpired]
      · intro record found
        rw [locks] at found
        exact found
    | started free =>
      have found : s'.locks.get r = some (.new r owner ttl now) := by rw [locks]; simp
      have given : grant r ⟨s, action, out, s'⟩ = some (owner, 1) := by
        simp [grant, acquiring, answer, found, LockRecord.new, LockRecord.fencingToken]
      refine trail.granted given found rfl (.inr ⟨rfl, ?_⟩)
      have unheld : (s.locks.get r).all (fun existing =>
          !existing.isOwnedBy owner && existing.isExpired now) = true := by
        rw [Option.all_eq_true]
        intro existing present
        obtain ⟨foreign, expired⟩ := free existing present
        simp [LockRecord.isOwnedBy, LockRecord.isExpired, foreign, expired]
      simp only [startsRecord, acquiring, reads, unheld, and_self, if_true]
  · apply trail.ungranted
    · simp [grant, acquiring, here]
    · simp [startsRecord, acquiring, here]
    · intro record found
      rw [locks, acquireLock_other s.locks (Ne.symm here)] at found
      exact found

theorem TokenTrail.step (trail : TokenTrail resource history s)
    (moved : lockTable.step s action = some (s', out)) :
    TokenTrail resource (⟨s, action, out, s'⟩ :: history) s' := by
  obtain ⟨-, -, locks, answer⟩ := lockStep_spec moved
  cases action with
  | acquire r owner ttl now => exact trail_of_acquire trail rfl rfl locks answer
  | renew r owner ttl now => exact trail_of_acquire trail rfl rfl locks answer
  | release r owner now =>
    apply trail.ungranted
    · rfl
    · rfl
    · intro record found
      rw [locks, LockAction.apply] at found
      unfold releaseLock at found
      split at found
      · split at found
        · rw [Kv.get_delete] at found
          split at found
          · cases found
          · exact found
        · exact found
      · exact found

/-- The lock passes exactly when two owners were granted it. -/
theorem TokenTrail.oneOwner_iff (trail : TokenTrail resource history s) :
    OneOwner (grants resource history) ↔ NeverPasses resource history := by
  constructor
  · intro one first firstIn second secondIn
    obtain ⟨token, given⟩ := (trail.started first).mpr firstIn
    obtain ⟨token', given'⟩ := (trail.started second).mpr secondIn
    exact one _ given _ given'
  · intro never first firstIn second secondIn
    exact never _ ((trail.started _).mp ⟨_, firstIn⟩) _ ((trail.started _).mp ⟨_, secondIn⟩)

/-- Starting from a key nobody holds, the tokens of a schedule are monotone across
owners exactly when the lock never passes to a second owner. -/
theorem tokens_fenced_iff (free : start.locks.get resource = none)
    (run : Run lockTable start history s) :
    Fenced (grants resource history) ↔ NeverPasses resource history := by
  have trail : TokenTrail resource history s := by
    apply run.history_invariant (P := TokenTrail resource)
    · exact ⟨by simp [free], by simp [grants], by simp [grants, Fenced, OneOwner],
        by simp [grants, starters]⟩
    · intro history s action s' out _ trail moved
      exact trail.step moved
  exact trail.fenced.trans trail.oneOwner_iff

/-- One owner that acquires and renews is given growing tokens. -/
theorem tokens_fenced_of_one_owner : ∃ history s,
    Run lockTable ⟨.empty, 0⟩ history s ∧ Fenced (grants "r" history) ∧
      grants "r" history = [("a", 2), ("a", 1)] := by
  obtain ⟨history, s, run, seen⟩ := Run.of_observation lockTable ⟨.empty, 0⟩
    [.acquire "r" "a" 10 0, .renew "r" "a" 10 (seconds 5)]
    (fun reached => (grants "r" reached.1, starters "r" reached.1))
    ([("a", 2), ("a", 1)], ["a"]) (by decide)
  obtain ⟨given, starting⟩ := Prod.mk.inj seen
  refine ⟨history, s, run, (tokens_fenced_iff rfl run).mpr ?_, given⟩
  simp [NeverPasses, starting]

/-- An owner that renewed holds token two; after it releases, the next owner is
given token one. -/
theorem token_falls_on_handover :
    ¬ ∀ history s, Run lockTable ⟨.empty, 0⟩ history s → Fenced (grants "r" history) := by
  intro fenced
  obtain ⟨history, s, run, seen⟩ := Run.of_observation lockTable ⟨.empty, 0⟩
    [.acquire "r" "a" 10 0, .renew "r" "a" 10 (seconds 5), .release "r" "a" (seconds 6),
      .acquire "r" "b" 10 (seconds 7)]
    (fun reached => grants "r" reached.1) [("b", 1), ("a", 2), ("a", 1)] (by decide)
  have above := fenced history s run
  rw [seen] at above
  have falls := above.1 rfl ("a", 2) (by simp)
  omega

end Roboflow.Tikv
