import Roboflow.Tikv.Lock

/-! Mutual exclusion. A granted acquire is a lease: until the time it asked for,
unless its owner releases it, no other owner is granted the lock. Leases are read
off the history of answers; the stored record is only how the code keeps them. -/
namespace Roboflow.Tikv
open Library

/-- The owner's latest granted acquire (time and ttl) since its last release. -/
def lease (resource owner : String) : LockHistory → Option (Time × Int)
  | [] => none
  | e :: older =>
    match e.act with
    | .acquire r o ttl now | .renew r o ttl now =>
      if r = resource ∧ o = owner ∧ e.out = true then some (now, ttl)
      else lease resource owner older
    | .release r o _ =>
      if r = resource ∧ o = owner ∧ e.out = true then none else lease resource owner older

/-- When a lease ends. -/
def leaseEnd (held : Time × Int) : Time := held.1 + seconds held.2

/-- The owner may rely on the lock at this time. -/
def Leased (resource owner : String) (history : LockHistory) (time : Time) : Prop :=
  ∃ held, lease resource owner history = some held ∧ time ≤ leaseEnd held

/-- Every running lease is the stored record. -/
def LeasesStored (history : LockHistory) (s : LockState) : Prop :=
  ∀ resource owner held, lease resource owner history = some held → s.clock ≤ leaseEnd held →
    ∃ record, s.locks.get resource = some record ∧ record.owner = owner ∧
      record.expiresAt = leaseEnd held

/-- The acquiring transaction keeps the other owners' leases, and stores its own. -/
private theorem leases_of_acquire (stored : LeasesStored history s) (later : s.clock ≤ now)
    (held : Time × Int) (running : now ≤ leaseEnd held)
    (leased : (if resource = res ∧ owner = who ∧ (acquireLock s.locks resource owner ttl now).2 = true
      then some (now, ttl) else lease res who history) = some held) :
    ∃ record, (acquireLock s.locks resource owner ttl now).1.get res = some record ∧
      record.owner = who ∧ record.expiresAt = leaseEnd held := by
  split at leased
  · rename_i granted
    obtain ⟨rfl, rfl, granted⟩ := granted
    obtain rfl := Option.some.inj leased
    exact acquireLock_granted granted
  · rename_i notGranted
    obtain ⟨record, found, own, expiry⟩ := stored res who held leased (later.trans running)
    by_cases here : res = resource
    · subst here
      have kept : (acquireLock s.locks res owner ttl now).1 = s.locks := by
        by_cases same : owner = who
        · exact acquireLock_refused (by simpa [same] using notGranted)
        · have foreign : record.owner ≠ owner := by rw [own]; exact Ne.symm same
          rw [acquireLock_held found foreign (by rw [expiry]; exact running)]
      rw [kept]
      exact ⟨record, found, own, expiry⟩
    · rw [acquireLock_other s.locks here]
      exact ⟨record, found, own, expiry⟩

/-- A release keeps every lease but the one it ends. -/
private theorem leases_of_release (stored : LeasesStored history s) (later : s.clock ≤ now)
    (held : Time × Int) (running : now ≤ leaseEnd held)
    (leased : (if resource = res ∧ owner = who ∧ (releaseLock s.locks resource owner).2 = true
      then none else lease res who history) = some held) :
    ∃ record, (releaseLock s.locks resource owner).1.get res = some record ∧
      record.owner = who ∧ record.expiresAt = leaseEnd held := by
  split at leased
  · cases leased
  · rename_i notReleased
    obtain ⟨record, found, own, expiry⟩ := stored res who held leased (later.trans running)
    by_cases here : res = resource
    · subst here
      have foreign : record.owner ≠ owner := by
        intro same
        apply notReleased
        rw [releaseLock_own found same]
        exact ⟨rfl, same.symm.trans own, rfl⟩
      rw [releaseLock_foreign fun other stored => by
        obtain rfl := Option.some.inj (found.symm.trans stored)
        exact foreign]
      exact ⟨record, found, own, expiry⟩
    · rw [releaseLock_other s.locks here]
      exact ⟨record, found, own, expiry⟩

/-- One call keeps running leases stored. -/
theorem LeasesStored.step (stored : LeasesStored history s)
    (moved : lockTable.step s action = some (s', out)) :
    LeasesStored (⟨s, action, out, s'⟩ :: history) s' := by
  obtain ⟨later, clock, locks, answer⟩ := lockStep_spec moved
  intro res who held leased running
  rw [clock] at running
  rw [locks]
  subst answer
  cases action with
  | acquire resource owner ttl now => exact leases_of_acquire stored later held running leased
  | renew resource owner ttl now => exact leases_of_acquire stored later held running leased
  | release resource owner now => exact leases_of_release stored later held running leased

/-- Wherever a schedule ends, running leases are stored. -/
theorem leasesStored_of_run (run : Run lockTable start history s) : LeasesStored history s := by
  apply run.history_invariant (P := LeasesStored)
  · intro resource owner held leased
    cases leased
  · intro history s action s' out _ stored moved
    exact stored.step moved

/-- Over every schedule of acquires, renewals and releases: while one owner's
latest granted acquire has not ended and was not released, no other owner's call
is granted; a release by anyone but the stored owner changes nothing; and at no
time do two owners have an unended lease on one resource. -/
theorem lock_mutual_exclusion (run : Run lockTable start history s) :
    (∀ resource owner other ttl now action s' out, Leased resource owner history now →
      other ≠ owner → action.acquiring = some (resource, other, ttl) → action.now = now →
      lockTable.step s action = some (s', out) → out = false) ∧
    (∀ resource owner now record s' out, s.locks.get resource = some record →
      record.owner ≠ owner → lockTable.step s (.release resource owner now) = some (s', out) →
      s'.locks = s.locks) ∧
    (∀ resource owner other time, s.clock ≤ time → Leased resource owner history time →
      Leased resource other history time → owner = other) := by
  have stored := leasesStored_of_run run
  refine ⟨?_, ?_, ?_⟩
  · rintro resource owner other ttl now action s' out ⟨held, leased, running⟩ different acquiring
      reads moved
    obtain ⟨later, -, -, answer⟩ := lockStep_spec moved
    rw [reads] at later
    obtain ⟨record, found, own, expiry⟩ := stored resource owner held leased (later.trans running)
    have foreign : record.owner ≠ other := by rw [own]; exact Ne.symm different
    have refused : acquireLock s.locks resource other ttl now = (s.locks, false) :=
      acquireLock_held found foreign (by rw [expiry]; exact running)
    cases action with
    | acquire | renew =>
      cases acquiring
      cases reads
      exact answer.trans (congrArg Prod.snd refused)
    | release => cases acquiring
  · intro resource owner now record s' out found foreign moved
    obtain ⟨-, -, locks, -⟩ := lockStep_spec moved
    rw [locks, LockAction.apply, releaseLock_foreign]
    intro other stored
    obtain rfl := Option.some.inj (found.symm.trans stored)
    exact foreign
  · rintro resource owner other time later ⟨held, leased, running⟩ ⟨held', leased', running'⟩
    obtain ⟨record, found, own, -⟩ := stored resource owner held leased (later.trans running)
    obtain ⟨record', found', own', -⟩ := stored resource other held' leased' (later.trans running')
    obtain rfl := Option.some.inj (found.symm.trans found')
    exact own.symm.trans own'

/-- A second owner asks for the lock while the first one's extended lease runs. -/
theorem lock_mutual_exclusion_extended : ∃ history s,
    Run lockTable ⟨.empty, 0⟩ history s ∧ Leased "r" "a" history (seconds 12) ∧
      ∀ s' out, lockTable.step s (.acquire "r" "b" 10 (seconds 12)) = some (s', out) →
        out = false := by
  obtain ⟨history, s, run, seen⟩ := Run.of_observation lockTable ⟨.empty, 0⟩
    [.acquire "r" "a" 10 0, .renew "r" "a" 10 (seconds 5), .release "r" "b" (seconds 6)]
    (fun reached => lease "r" "a" reached.1) (some (seconds 5, 10)) (by decide)
  have leased : Leased "r" "a" history (seconds 12) := ⟨_, seen, by decide⟩
  refine ⟨history, s, run, leased, fun s' out moved => ?_⟩
  exact (lock_mutual_exclusion run).1 "r" "a" "b" 10 _ _ s' out leased (by decide) rfl rfl moved

end Roboflow.Tikv
