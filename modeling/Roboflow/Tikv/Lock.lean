import Roboflow.Library.Kv
import Roboflow.Library.Machine
import Roboflow.Tikv.Schema

/-! Distributed locks: the transactions `acquire_lock` and `release_lock` of
`tikv/client.rs`, and what whole schedules of them guarantee. Each transaction is
pessimistic, so it is one step on the latest committed record, and it reads the
clock once. A call that ends in an error has rolled back and takes no step. -/
namespace Roboflow.Tikv
open Library

/-- The records under the lock keys, by resource. -/
abbrev Locks := Kv String LockRecord

/-- `acquire_lock_once`. -/
def acquireLock (locks : Locks) (resource owner : String) (ttlSeconds : Int) (now : Time) :
    Locks × Bool :=
  match locks.get resource with
  | some existing =>
    if existing.isOwnedBy owner then (locks.put resource (existing.extend ttlSeconds now), true)
    else if !existing.isExpired now then (locks, false)
    else (locks.put resource (.new resource owner ttlSeconds now), true)
  | none => (locks.put resource (.new resource owner ttlSeconds now), true)

/-- `release_lock_once`. -/
def releaseLock (locks : Locks) (resource owner : String) : Locks × Bool :=
  match locks.get resource with
  | some existing => if existing.isOwnedBy owner then (locks.delete resource, true) else (locks, false)
  | none => (locks, false)

/-- What an acquire finds and does: it extends its owner's record, gives way to
another's unexpired one, and otherwise starts a record of its own. -/
inductive Acquired (locks : Locks) (resource owner : String) (ttl : Int) (now : Time) :
    Locks × Bool → Prop where
  | extended (stored : locks.get resource = some existing) (own : existing.owner = owner) :
      Acquired locks resource owner ttl now (locks.put resource (existing.extend ttl now), true)
  | refused (stored : locks.get resource = some existing) (foreign : existing.owner ≠ owner)
      (unexpired : now ≤ existing.expiresAt) : Acquired locks resource owner ttl now (locks, false)
  | started (free : ∀ existing, locks.get resource = some existing →
        existing.owner ≠ owner ∧ existing.expiresAt < now) :
      Acquired locks resource owner ttl now (locks.put resource (.new resource owner ttl now), true)

theorem acquireLock_spec (locks : Locks) (resource owner : String) (ttl : Int) (now : Time) :
    Acquired locks resource owner ttl now (acquireLock locks resource owner ttl now) := by
  unfold acquireLock
  split
  · rename_i existing stored
    split
    · rename_i own
      exact .extended stored (by simpa [LockRecord.isOwnedBy] using own)
    · rename_i foreign
      have different : existing.owner ≠ owner := by simpa [LockRecord.isOwnedBy] using foreign
      split
      · rename_i unexpired
        exact .refused stored different (by simpa [LockRecord.isExpired] using unexpired)
      · rename_i expired
        refine .started fun other found => ?_
        obtain rfl : existing = other := Option.some.inj (stored.symm.trans found)
        exact ⟨different, by simpa [LockRecord.isExpired] using expired⟩
  · rename_i absent
    exact .started fun other found => by simp [absent] at found

/-- An acquire leaves every other resource alone. -/
theorem acquireLock_other (locks : Locks) (different : other ≠ resource) :
    (acquireLock locks resource owner ttl now).1.get other = locks.get other := by
  have spec := acquireLock_spec locks resource owner ttl now
  generalize acquireLock locks resource owner ttl now = answer at spec ⊢
  cases spec with
  | extended _ _ => exact locks.get_put_ne different _
  | refused _ _ _ => rfl
  | started _ => exact locks.get_put_ne different _

/-- A granted acquire leaves its owner's record, with the expiry it asked for. -/
theorem acquireLock_granted {locks : Locks}
    (granted : (acquireLock locks resource owner ttl now).2 = true) :
    ∃ record, (acquireLock locks resource owner ttl now).1.get resource = some record ∧
      record.owner = owner ∧ record.expiresAt = now + seconds ttl := by
  have spec := acquireLock_spec locks resource owner ttl now
  generalize acquireLock locks resource owner ttl now = answer at spec granted ⊢
  cases spec with
  | extended _ own => exact ⟨_, locks.get_put_self _ _, own, rfl⟩
  | refused _ _ _ => cases granted
  | started _ => exact ⟨_, locks.get_put_self _ _, rfl, rfl⟩

/-- A refused acquire changes nothing. -/
theorem acquireLock_refused {locks : Locks}
    (refused : (acquireLock locks resource owner ttl now).2 = false) :
    (acquireLock locks resource owner ttl now).1 = locks := by
  have spec := acquireLock_spec locks resource owner ttl now
  generalize acquireLock locks resource owner ttl now = answer at spec refused ⊢
  cases spec with
  | extended _ _ => cases refused
  | refused _ _ _ => rfl
  | started _ => cases refused

/-- Nobody takes a lock another owner holds unexpired. -/
theorem acquireLock_held {locks : Locks} (stored : locks.get resource = some record)
    (foreign : record.owner ≠ owner) (unexpired : now ≤ record.expiresAt) :
    acquireLock locks resource owner ttl now = (locks, false) := by
  have live : record.isExpired now = false := by simpa [LockRecord.isExpired] using unexpired
  simp [acquireLock, stored, LockRecord.isOwnedBy, foreign, live]

/-- A release by anyone but the owner changes nothing. -/
theorem releaseLock_foreign {locks : Locks}
    (foreign : ∀ record, locks.get resource = some record → record.owner ≠ owner) :
    releaseLock locks resource owner = (locks, false) := by
  unfold releaseLock
  split
  · rename_i existing stored
    simp [LockRecord.isOwnedBy, foreign existing stored]
  · rfl

/-- The owner's release removes the record. -/
theorem releaseLock_own {locks : Locks} (stored : locks.get resource = some record)
    (own : record.owner = owner) : releaseLock locks resource owner = (locks.delete resource, true) := by
  simp [releaseLock, stored, LockRecord.isOwnedBy, own]

theorem releaseLock_other (locks : Locks) (different : other ≠ resource) :
    (releaseLock locks resource owner).1.get other = locks.get other := by
  unfold releaseLock
  split
  · split
    · exact locks.get_delete_ne different
    · rfl
  · rfl

/-- A release never stores a record. -/
theorem releaseLock_none {locks : Locks} (free : locks.get other = none) :
    (releaseLock locks resource owner).1.get other = none := by
  unfold releaseLock
  split
  · split
    · rw [Kv.get_delete]
      split
      · rfl
      · exact free
    · exact free
  · exact free

/-! ### Schedules of lock calls -/

structure LockState where
  locks : Locks
  clock : Time

/-- One call, with what the clock read in its transaction. `renew` is
`LockManager::renew`, which runs the acquiring transaction. -/
inductive LockAction where
  | acquire (resource owner : String) (ttlSeconds : Int) (now : Time)
  | renew (resource owner : String) (ttlSeconds : Int) (now : Time)
  | release (resource owner : String) (now : Time)

def LockAction.now : LockAction → Time
  | .acquire _ _ _ now | .renew _ _ _ now | .release _ _ now => now

/-- The transaction of one call and its answer. -/
def LockAction.apply (locks : Locks) : LockAction → Locks × Bool
  | .acquire resource owner ttl now | .renew resource owner ttl now =>
    acquireLock locks resource owner ttl now
  | .release resource owner _ => releaseLock locks resource owner

/-- The clock never runs backwards. -/
def lockStep (s : LockState) (action : LockAction) : Option (LockState × Bool) :=
  if s.clock ≤ action.now then
    some (⟨(action.apply s.locks).1, action.now⟩, (action.apply s.locks).2)
  else none

def lockTable : Machine LockState LockAction Bool := ⟨lockStep⟩

abbrev LockHistory := History LockState LockAction Bool

/-- The acquiring transaction a call runs, if it is one: resource, owner and ttl. -/
def LockAction.acquiring : LockAction → Option (String × String × Int)
  | .acquire resource owner ttl _ | .renew resource owner ttl _ => some (resource, owner, ttl)
  | .release .. => none

theorem lockStep_spec (moved : lockTable.step s action = some (s', out)) :
    s.clock ≤ action.now ∧ s'.clock = action.now ∧ s'.locks = (action.apply s.locks).1 ∧
      out = (action.apply s.locks).2 := by
  simp only [lockTable, lockStep] at moved
  split at moved
  · rename_i later
    cases moved
    exact ⟨later, rfl, rfl, rfl⟩
  · cases moved

end Roboflow.Tikv
