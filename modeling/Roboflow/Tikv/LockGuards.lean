import Roboflow.Tikv.Lock

/-! Lock guards, `tikv/locks.rs`. A `LockManager` hands out guards; a guard may
renew its lock, renews it in the background when asked to, and releases it when
it is released or dropped. Renewal runs the acquiring transaction, and the lock
knows its owner by name only, so two guards of one owner share a record.

Every `acquire_lock` and `release_lock` is one step that reads the clock. The
check of the released flag and the renewal it leads to are two steps. Aborting a
renewal task stops it between its calls; a call already sent may still commit,
and the schedule decides whether it does. -/
namespace Roboflow.Tikv
open Library

/-- `Duration` to whole seconds, counting a started millisecond as one more and
saturating at `i64::MAX`. -/
def ttlSecs (ttlNanos : Nat) : Int :=
  let secs := ttlNanos / 1000000000
  let millis := ttlNanos % 1000000000 / 1000000
  min (min (secs + if 0 < millis then 1 else 0) (2 ^ 64 - 1) : Nat) (2 ^ 63 - 1)

/-- Where a guard's renewal task is. -/
inductive Renewal where
  | off
  | ticking
  /-- It found the flag unset and is about to call `acquire_lock`. -/
  | renewing
  | stopped
  deriving DecidableEq, Repr

structure LockGuard where
  resource : String
  owner : String
  ttlSecs : Int
  released : Bool := false
  /-- Released or dropped, with its `release_lock` still to run. -/
  owesRelease : Bool := false
  renewal : Renewal
  /-- When the guard's own last acquisition or renewal expires. -/
  leasedUntil : Time
  deriving DecidableEq

structure GuardState where
  locks : Locks
  clock : Time
  guards : Kv Nat LockGuard

/-- The three ways a manager acquires; each attempt of `acquire_blocking` is one call. -/
inductive AcquireKind where
  | tryAcquire | acquireBlocking | acquireWithRenewal
  deriving DecidableEq, Repr

inductive GuardAction where
  | acquire (kind : AcquireKind) (guard : Nat) (resource owner : String) (ttl : Nat) (now : Time)
  /-- `LockManager::renew`. -/
  | managerRenew (resource owner : String) (ttl : Nat) (now : Time)
  /-- `LockManager::release`. -/
  | managerRelease (resource owner : String) (now : Time)
  /-- `LockGuard::renew`. -/
  | renew (guard : Nat) (now : Time)
  | renewalTick (guard : Nat)
  | renewalAcquire (guard : Nat) (now : Time)
  /-- `LockGuard::release` up to its `release_lock`. -/
  | release (guard : Nat)
  /-- `Drop::drop`; without a runtime the lock is left to expire. -/
  | drop (guard : Nat) (runtime : Bool)
  /-- The `release_lock` of a released or dropped guard. -/
  | releaseLock (guard : Nat) (now : Time)

inductive GuardOut where
  | working
  | answered (ok : Bool)
  deriving DecidableEq

/-- Released or dropped: the flag is set and a waiting renewal task is aborted. -/
def LockGuard.letGo (guard : LockGuard) (owesRelease : Bool) : LockGuard :=
  { guard with
    released := true
    owesRelease := owesRelease
    renewal := if guard.renewal = .ticking then .stopped else guard.renewal }

/-- A renewal of this guard's own: on success its lease runs anew. -/
def LockGuard.renewed (guard : LockGuard) (ok : Bool) (now : Time) : LockGuard :=
  if ok then { guard with leasedUntil := now + seconds guard.ttlSecs } else guard

def guardStep (s : GuardState) : GuardAction → Option (GuardState × GuardOut)
  | .acquire kind id resource owner ttl now =>
    if s.clock ≤ now ∧ s.guards.get id = none then
      let answer := acquireLock s.locks resource owner (ttlSecs ttl) now
      let guard : LockGuard := {
        resource := resource
        owner := owner
        ttlSecs := ttlSecs ttl
        renewal := if kind = .acquireWithRenewal then .ticking else .off
        leasedUntil := now + seconds (ttlSecs ttl) }
      some (⟨answer.1, now, if answer.2 then s.guards.put id guard else s.guards⟩,
        .answered answer.2)
    else none
  | .managerRenew resource owner ttl now =>
    if s.clock ≤ now then
      let answer := acquireLock s.locks resource owner (ttlSecs ttl) now
      some (⟨answer.1, now, s.guards⟩, .answered answer.2)
    else none
  | .managerRelease resource owner now =>
    if s.clock ≤ now then
      let answer := Tikv.releaseLock s.locks resource owner
      some (⟨answer.1, now, s.guards⟩, .answered answer.2)
    else none
  | .renew id now =>
    match s.guards.get id with
    | some guard =>
      if s.clock ≤ now ∧ guard.released = false then
        let answer := acquireLock s.locks guard.resource guard.owner guard.ttlSecs now
        some (⟨answer.1, now, s.guards.put id (guard.renewed answer.2 now)⟩, .answered answer.2)
      else none
    | none => none
  | .renewalTick id =>
    match s.guards.get id with
    | some guard =>
      if guard.renewal = .ticking then
        let next : Renewal := if guard.released then .stopped else .renewing
        some ({ s with guards := s.guards.put id { guard with renewal := next } }, .working)
      else none
    | none => none
  | .renewalAcquire id now =>
    match s.guards.get id with
    | some guard =>
      if s.clock ≤ now ∧ guard.renewal = .renewing then
        let answer := acquireLock s.locks guard.resource guard.owner guard.ttlSecs now
        let next : Renewal := if answer.2 then .ticking else .stopped
        some (⟨answer.1, now, s.guards.put id { guard.renewed answer.2 now with renewal := next }⟩,
          .answered answer.2)
      else none
    | none => none
  | .release id =>
    match s.guards.get id with
    | some guard =>
      if guard.released = false then
        some ({ s with guards := s.guards.put id (guard.letGo true) }, .working)
      else none
    | none => none
  | .drop id runtime =>
    match s.guards.get id with
    | some guard =>
      if guard.released = false then
        some ({ s with guards := s.guards.put id (guard.letGo runtime) }, .working)
      else none
    | none => none
  | .releaseLock id now =>
    match s.guards.get id with
    | some guard =>
      if s.clock ≤ now ∧ guard.owesRelease = true then
        let answer := Tikv.releaseLock s.locks guard.resource guard.owner
        some (⟨answer.1, now, s.guards.put id { guard with owesRelease := false }⟩,
          .answered answer.2)
      else none
    | none => none

def guardMachine : Machine GuardState GuardAction GuardOut := ⟨guardStep⟩

/-! ## What is claimed of guards -/

/-- The lock a renewal is for: its resource and its owner. -/
def renewalOf (s : GuardState) : GuardAction → Option (String × String)
  | .managerRenew resource owner _ _ => some (resource, owner)
  | .renew id _ | .renewalAcquire id _ =>
    (s.guards.get id).map fun guard => (guard.resource, guard.owner)
  | _ => none

/-- The record under this resource belongs to this owner. -/
def Owned (locks : Locks) (resource owner : String) : Prop :=
  ∃ record, locks.get resource = some record ∧ record.owner = owner

/-- A renewal succeeds on its owner's record only, and otherwise changes nothing;
and only an acquisition brings a record back. -/
structure RenewsOwn (e : Transition GuardState GuardAction GuardOut) : Prop where
  success : ∀ resource owner, renewalOf e.pre e.act = some (resource, owner) →
    e.out = .answered true → Owned e.pre.locks resource owner
  harmless : ∀ resource owner, renewalOf e.pre e.act = some (resource, owner) →
    ¬ Owned e.pre.locks resource owner → e.post.locks = e.pre.locks
  returns : ∀ resource, e.pre.locks.get resource = none → e.post.locks.get resource ≠ none →
    ∃ kind id owner ttl now, e.act = .acquire kind id resource owner ttl now

/-- Every guard neither released nor dropped, whose lease runs, has its record stored. -/
def GuardsStored (s : GuardState) : Prop :=
  ∀ id guard, s.guards.get id = some guard → guard.released = false →
    s.clock ≤ guard.leasedUntil → Owned s.locks guard.resource guard.owner

/-! ## When it holds -/

/-- The acquiring transaction of a step: resource, owner, ttl and time. -/
def acquiringOf (s : GuardState) : GuardAction → Option (String × String × Int × Time)
  | .acquire _ _ resource owner ttl now | .managerRenew resource owner ttl now =>
    some (resource, owner, ttlSecs ttl, now)
  | .renew id now | .renewalAcquire id now =>
    (s.guards.get id).map fun guard => (guard.resource, guard.owner, guard.ttlSecs, now)
  | _ => none

/-- The releasing transaction of a step: resource, owner and time. -/
def releasingOf (s : GuardState) : GuardAction → Option (String × String × Time)
  | .managerRelease resource owner now => some (resource, owner, now)
  | .releaseLock id now => (s.guards.get id).map fun guard => (guard.resource, guard.owner, now)
  | _ => none

/-- The guards of one owner on one resource whose lease still runs. -/
def liveGuards (s : GuardState) (resource owner : String) (now : Time) : List LockGuard :=
  (s.guards.entries.map Prod.snd).filter fun guard => guard.released = false ∧
    guard.resource = resource ∧ guard.owner = owner ∧ now ≤ guard.leasedUntil

/-- A renewal finds its owner's record, or another's that has not expired. -/
def RenewsHeldLock (s : GuardState) (action : GuardAction) : Bool :=
  (renewalOf s action).all fun lock => (acquiringOf s action).all fun call =>
    (s.locks.get lock.1).any fun record =>
      record.isOwnedBy lock.2 || !record.isExpired call.2.2.2

/-- An acquiring transaction does not shorten what its owner's guards rely on. -/
def KeepsExpiry (s : GuardState) (action : GuardAction) : Bool :=
  (acquiringOf s action).all fun call =>
    (liveGuards s call.1 call.2.1 call.2.2.2).all fun guard =>
      guard.leasedUntil ≤ call.2.2.2 + seconds call.2.2.1

/-- A releasing transaction comes when no other guard of its owner relies on the lock. -/
def ReleasesLast (s : GuardState) (action : GuardAction) : Bool :=
  (releasingOf s action).all fun call => liveGuards s call.1 call.2.1 call.2.2 = []

def GuardsApart (s : GuardState) (action : GuardAction) : Prop :=
  RenewsHeldLock s action = true ∧ KeepsExpiry s action = true ∧ ReleasesLast s action = true

instance (s : GuardState) (action : GuardAction) : Decidable (GuardsApart s action) :=
  inferInstanceAs (Decidable (_ ∧ _ ∧ _))

/-! ## What a step can do -/

/-- The guard was there before, live, and its lease is what it was. -/
def LeaseKept (s : GuardState) (id : Nat) (guard : LockGuard) : Prop :=
  ∃ before, s.guards.get id = some before ∧ before.released = false ∧
    before.resource = guard.resource ∧ before.owner = guard.owner ∧
    before.leasedUntil = guard.leasedUntil

/-- A step runs the acquiring transaction, the releasing one, or none. Leases
begin with the first and are otherwise kept or given up. -/
inductive GuardMove (s : GuardState) (action : GuardAction) (out : GuardOut) (s' : GuardState) :
    Prop where
  | acquires (call : acquiringOf s action = some (resource, owner, ttl, now))
      (later : s.clock ≤ now) (clock : s'.clock = now)
      (locks : s'.locks = (acquireLock s.locks resource owner ttl now).1)
      (answer : out = .answered (acquireLock s.locks resource owner ttl now).2)
      (leases : ∀ id guard, s'.guards.get id = some guard → guard.released = false →
        LeaseKept s id guard ∨
          ((acquireLock s.locks resource owner ttl now).2 = true ∧ guard.resource = resource ∧
            guard.owner = owner ∧ guard.leasedUntil = now + seconds ttl))
  | releases (call : releasingOf s action = some (resource, owner, now))
      (later : s.clock ≤ now) (clock : s'.clock = now)
      (locks : s'.locks = (releaseLock s.locks resource owner).1)
      (leases : ∀ id guard, s'.guards.get id = some guard → guard.released = false →
        LeaseKept s id guard)
  | silent (renewal : renewalOf s action = none) (clock : s'.clock = s.clock)
      (locks : s'.locks = s.locks)
      (leases : ∀ id guard, s'.guards.get id = some guard → guard.released = false →
        LeaseKept s id guard)

/-- Replacing one guard keeps every lease, when it keeps that guard's. -/
private theorem leaseKept_of_put {s : GuardState} {id other : Nat} {guard : LockGuard}
    (stored : s.guards.get id = some before)
    (same : after.released = false → before.released = false ∧ before.resource = after.resource ∧
      before.owner = after.owner ∧ before.leasedUntil = after.leasedUntil)
    (found : (s.guards.put id after).get other = some guard) (live : guard.released = false) :
    LeaseKept s other guard := by
  rw [Kv.get_put] at found
  split at found
  · rename_i here
    obtain rfl := Option.some.inj found
    obtain ⟨was, resource, owner, lease⟩ := same live
    exact ⟨before, by rw [here]; exact stored, was, resource, owner, lease⟩
  · exact ⟨guard, found, live, rfl, rfl, rfl⟩

/-- Replacing the guard that renewed keeps the other leases. -/
private theorem leaseKept_or_renewed {s : GuardState} {id other : Nat}
    {before after guard : LockGuard}
    (stored : s.guards.get id = some before)
    (fields : after.resource = before.resource ∧ after.owner = before.owner ∧
      after.released = before.released)
    (lease : after.leasedUntil = if ok then now + seconds before.ttlSecs else before.leasedUntil)
    (found : (s.guards.put id after).get other = some guard) (live : guard.released = false) :
    LeaseKept s other guard ∨ (ok = true ∧ guard.resource = before.resource ∧
      guard.owner = before.owner ∧ guard.leasedUntil = now + seconds before.ttlSecs) := by
  obtain ⟨resource, owner, released⟩ := fields
  by_cases granted : ok = true
  · rw [Kv.get_put] at found
    split at found
    · obtain rfl := Option.some.inj found
      exact .inr ⟨granted, resource, owner, by simpa [granted] using lease⟩
    · exact .inl ⟨guard, found, live, rfl, rfl, rfl⟩
  · refine .inl (leaseKept_of_put stored (fun live => ?_) found live)
    exact ⟨released ▸ live, resource.symm, owner.symm, by simp [lease, granted]⟩

private theorem leaseKept_self {s : GuardState} {id : Nat} {guard : LockGuard}
    (found : s.guards.get id = some guard) (live : guard.released = false) : LeaseKept s id guard :=
  ⟨guard, found, live, rfl, rfl, rfl⟩

/-- The step function has no other effect. -/
theorem guardMove_of_step (moved : guardMachine.step s action = some (s', out)) :
    GuardMove s action out s' := by
  cases action with
  | acquire kind id resource owner ttl now =>
    simp only [guardMachine, guardStep] at moved
    split at moved
    · rename_i enabled
      cases moved
      refine .acquires rfl enabled.1 rfl rfl rfl fun other guard found live => ?_
      simp only at found
      split at found
      · rename_i granted
        rw [Kv.get_put] at found
        split at found
        · obtain rfl := Option.some.inj found
          exact .inr ⟨granted, rfl, rfl, rfl⟩
        · exact .inl (leaseKept_self found live)
      · exact .inl (leaseKept_self found live)
    · cases moved
  | managerRenew resource owner ttl now =>
    simp only [guardMachine, guardStep] at moved
    split at moved
    · rename_i later
      cases moved
      exact .acquires rfl later rfl rfl rfl fun id guard found live => .inl (leaseKept_self found live)
    · cases moved
  | managerRelease resource owner now =>
    simp only [guardMachine, guardStep] at moved
    split at moved
    · rename_i later
      cases moved
      exact .releases rfl later rfl rfl fun id guard found live => leaseKept_self found live
    · cases moved
  | renew id now =>
    simp only [guardMachine, guardStep] at moved
    split at moved
    · rename_i guard stored
      split at moved
      · rename_i enabled
        cases moved
        refine .acquires (by simp [acquiringOf, stored]) enabled.1 rfl rfl rfl
          fun other found present live => leaseKept_or_renewed stored ?_ ?_ present live
        · unfold LockGuard.renewed
          split <;> exact ⟨rfl, rfl, rfl⟩
        · unfold LockGuard.renewed
          split <;> rfl
      · cases moved
    · cases moved
  | renewalTick id =>
    simp only [guardMachine, guardStep] at moved
    split at moved
    · rename_i guard stored
      split at moved
      · cases moved
        refine .silent rfl rfl rfl fun other found present live =>
          leaseKept_of_put stored ?_ present live
        exact fun was => ⟨was, rfl, rfl, rfl⟩
      · cases moved
    · cases moved
  | renewalAcquire id now =>
    simp only [guardMachine, guardStep] at moved
    split at moved
    · rename_i guard stored
      split at moved
      · rename_i enabled
        cases moved
        refine .acquires (by simp [acquiringOf, stored]) enabled.1 rfl rfl rfl
          fun other found present live => leaseKept_or_renewed stored ?_ ?_ present live
        · unfold LockGuard.renewed
          split <;> exact ⟨rfl, rfl, rfl⟩
        · unfold LockGuard.renewed
          split <;> rfl
      · cases moved
    · cases moved
  | release id =>
    simp only [guardMachine, guardStep] at moved
    split at moved
    · rename_i guard stored
      split at moved
      · cases moved
        exact .silent rfl rfl rfl fun other found present live =>
          leaseKept_of_put stored (fun was => by cases was) present live
      · cases moved
    · cases moved
  | drop id runtime =>
    simp only [guardMachine, guardStep] at moved
    split at moved
    · rename_i guard stored
      split at moved
      · cases moved
        exact .silent rfl rfl rfl fun other found present live =>
          leaseKept_of_put stored (fun was => by cases was) present live
      · cases moved
    · cases moved
  | releaseLock id now =>
    simp only [guardMachine, guardStep] at moved
    split at moved
    · rename_i guard stored
      split at moved
      · rename_i enabled
        cases moved
        refine .releases (by simp [releasingOf, stored]) enabled.1 rfl rfl
          fun other found present live => leaseKept_of_put stored ?_ present live
        exact fun was => ⟨was, rfl, rfl, rfl⟩
      · cases moved
    · cases moved

/-! ## The invariant -/

/-- Every running lease is backed by its owner's record, which lasts as long. -/
def Backed (s : GuardState) : Prop :=
  ∀ id guard, s.guards.get id = some guard → guard.released = false →
    s.clock ≤ guard.leasedUntil → ∃ record, s.locks.get guard.resource = some record ∧
      record.owner = guard.owner ∧ guard.leasedUntil ≤ record.expiresAt

theorem mem_liveGuards {s : GuardState} {id : Nat} {guard : LockGuard}
    (stored : s.guards.get id = some guard) (live : guard.released = false)
    (running : now ≤ guard.leasedUntil) :
    guard ∈ liveGuards s guard.resource guard.owner now := by
  apply List.mem_filter.mpr
  refine ⟨List.mem_map.mpr ⟨(id, guard), s.guards.mem_entries.mpr stored, rfl⟩, ?_⟩
  simp [live, running]

/-- A running lease of the owner that acquires is extended, any other is respected. -/
private theorem backed_of_acquire {s : GuardState} {id : Nat} {before : LockGuard}
    (backed : Backed s)
    (later : s.clock ≤ now) (stored : s.guards.get id = some before)
    (live : before.released = false) (running : now ≤ before.leasedUntil)
    (expiry : ∀ other ∈ liveGuards s resource owner now, other.leasedUntil ≤ now + seconds ttl) :
    ∃ record, (acquireLock s.locks resource owner ttl now).1.get before.resource = some record ∧
      record.owner = before.owner ∧ before.leasedUntil ≤ record.expiresAt := by
  obtain ⟨record, found, own, lasts⟩ := backed id before stored live (later.trans running)
  by_cases here : before.resource = resource
  · subst here
    by_cases same : before.owner = owner
    · subst same
      have longer := expiry before (mem_liveGuards stored live running)
      have granted : acquireLock s.locks before.resource before.owner ttl now =
          (s.locks.put before.resource (record.extend ttl now), true) := by
        simp [acquireLock, found, LockRecord.isOwnedBy, own]
      rw [granted]
      exact ⟨_, Kv.get_put_self _ _ _, own, longer⟩
    · have foreign : record.owner ≠ owner := by rw [own]; exact same
      rw [acquireLock_held found foreign (running.trans lasts)]
      exact ⟨record, found, own, lasts⟩
  · rw [acquireLock_other s.locks here]
    exact ⟨record, found, own, lasts⟩

theorem Backed.step (backed : Backed s) (apart : GuardsApart s action)
    (moved : GuardMove s action out s') : Backed s' := by
  obtain ⟨-, keepsExpiry, releasesLast⟩ := apart
  cases moved with
  | @acquires resource owner ttl now call later clock locks answer leases =>
    intro id guard found live running
    rw [clock] at running
    rw [locks]
    have expiry : ∀ other ∈ liveGuards s resource owner now,
        other.leasedUntil ≤ now + seconds ttl := by
      simpa [KeepsExpiry, call] using keepsExpiry
    rcases leases id guard found live with
      ⟨before, stored, was, sameResource, sameOwner, sameLease⟩ | ⟨granted, rfl, rfl, lease⟩
    · rw [← sameLease] at running
      have kept := backed_of_acquire backed later stored was running expiry
      rwa [sameResource, sameOwner, sameLease] at kept
    · obtain ⟨record, present, own, lasts⟩ := acquireLock_granted granted
      exact ⟨record, present, own, by rw [lasts, lease]⟩
  | @releases resource owner now call later clock locks leases =>
    intro id guard found live running
    rw [clock] at running
    rw [locks]
    obtain ⟨before, stored, was, sameResource, sameOwner, sameLease⟩ := leases id guard found live
    rw [← sameLease] at running
    obtain ⟨record, present, own, lasts⟩ := backed id before stored was (later.trans running)
    rw [← sameResource, ← sameOwner, ← sameLease]
    by_cases here : before.resource = resource
    · subst here
      have foreign : record.owner ≠ owner := by
        rintro rfl
        have member := mem_liveGuards stored was running
        have none : liveGuards s before.resource record.owner now = [] := by
          simpa [ReleasesLast, call] using releasesLast
        rw [← own, none] at member
        cases member
      rw [releaseLock_foreign fun other at_other => by
        obtain rfl := Option.some.inj (present.symm.trans at_other)
        exact foreign]
      exact ⟨record, present, own, lasts⟩
    · rw [releaseLock_other s.locks here]
      exact ⟨record, present, own, lasts⟩
  | silent _ clock locks leases =>
    intro id guard found live running
    obtain ⟨before, stored, was, sameResource, sameOwner, sameLease⟩ := leases id guard found live
    rw [clock, ← sameLease] at running
    rw [locks, ← sameResource, ← sameOwner, ← sameLease]
    exact backed id before stored was running

/-- Which acquiring transactions are not renewals. -/
theorem acquire_of_not_renewal (call : acquiringOf s action = some (resource, owner, ttl, now))
    (other : renewalOf s action = none) :
    ∃ kind id nanos, action = .acquire kind id resource owner nanos now := by
  cases action with
  | acquire kind id r o nanos time =>
    cases call
    exact ⟨kind, id, nanos, rfl⟩
  | renew id time =>
    obtain ⟨guard, stored, -⟩ := Option.map_eq_some_iff.mp call
    simp [renewalOf, stored] at other
  | renewalAcquire id time =>
    obtain ⟨guard, stored, -⟩ := Option.map_eq_some_iff.mp call
    simp [renewalOf, stored] at other
  | managerRenew => cases other
  | managerRelease | renewalTick | release | drop | releaseLock => cases call

/-- A renewal is an acquiring transaction for the lock it renews. -/
theorem acquiring_of_renewal (call : acquiringOf s action = some (resource, owner, ttl, now))
    (renews : renewalOf s action = some lock) : lock = (resource, owner) := by
  cases action with
  | managerRenew =>
    cases call
    cases renews
    rfl
  | renew id time =>
    obtain ⟨guard, stored, same⟩ := Option.map_eq_some_iff.mp call
    cases same
    simpa [renewalOf, stored, eq_comm] using renews
  | renewalAcquire id time =>
    obtain ⟨guard, stored, same⟩ := Option.map_eq_some_iff.mp call
    cases same
    simpa [renewalOf, stored, eq_comm] using renews
  | acquire | managerRelease | renewalTick | release | drop | releaseLock => cases renews

/-- A renewal that finds the lock held extends its owner's record or is refused. -/
theorem owned_or_refused (held : RenewsHeldLock s action = true)
    (call : acquiringOf s action = some (resource, owner, ttl, now))
    (renews : renewalOf s action = some (resource, owner)) :
    Owned s.locks resource owner ∨ acquireLock s.locks resource owner ttl now = (s.locks, false) := by
  simp only [RenewsHeldLock, renews, call, Option.all_some, Option.any_eq_true] at held
  obtain ⟨record, found, owned | unexpired⟩ :=
    held.imp fun _ both => both.imp_right Bool.or_eq_true_iff.mp
  · exact .inl ⟨record, found, by simpa [LockRecord.isOwnedBy] using owned⟩
  · by_cases own : record.owner = owner
    · exact .inl ⟨record, found, own⟩
    · exact .inr (acquireLock_held found own (by simpa [LockRecord.isExpired] using unexpired))

theorem renewsOwn_of_move (apart : GuardsApart s action) (moved : GuardMove s action out s') :
    RenewsOwn ⟨s, action, out, s'⟩ := by
  obtain ⟨held, -, -⟩ := apart
  cases moved with
  | @acquires resource owner ttl now call later clock locks answer leases =>
    refine ⟨fun r o renews success => ?_, fun r o renews foreign => ?_, fun r free stored => ?_⟩
    · obtain ⟨rfl, rfl⟩ := Prod.mk.inj (acquiring_of_renewal call renews)
      rcases owned_or_refused held call renews with owned | refused
      · exact owned
      · rw [refused] at answer
        simp [answer] at success
    · obtain ⟨rfl, rfl⟩ := Prod.mk.inj (acquiring_of_renewal call renews)
      rcases owned_or_refused held call renews with owned | refused
      · exact absurd owned foreign
      · exact locks.trans (congrArg Prod.fst refused)
    · have here : r = resource := by
        by_contra elsewhere
        apply stored
        show s'.locks.get r = none
        rw [locks, acquireLock_other s.locks elsewhere]
        exact free
      subst here
      cases renews : renewalOf s action with
      | none =>
        obtain ⟨kind, id, nanos, rfl⟩ := acquire_of_not_renewal call renews
        exact ⟨kind, id, owner, nanos, now, rfl⟩
      | some lock =>
        obtain rfl := acquiring_of_renewal call renews
        rcases owned_or_refused held call renews with ⟨record, found, -⟩ | refused
        · simp only at free
          simp [free] at found
        · apply absurd free
          rw [locks, refused] at stored
          exact stored
  | @releases resource owner now call later clock locks leases =>
    have notRenewal : renewalOf s action = none := by
      cases action <;> first | rfl | cases call
    refine ⟨fun r o renews => ?_, fun r o renews => ?_, fun r free stored => ?_⟩
    · simp [notRenewal] at renews
    · simp [notRenewal] at renews
    · exact absurd (releaseLock_none free) (by rw [locks] at stored; exact stored)
  | silent notRenewal clock locks leases =>
    refine ⟨fun r o renews => ?_, fun r o renews => ?_, fun r free stored => ?_⟩
    · simp [notRenewal] at renews
    · simp [notRenewal] at renews
    · rw [locks] at stored
      exact absurd free stored

/-! ## Whole runs -/

/-- Over every schedule in which renewals find a held lock and the guards of one
owner do not cut each other short: renewals touch their owner's record only, no
record returns without an acquisition, and every running guard has its record. -/
theorem guards_hold_their_locks (none : start.guards = .empty)
    (run : Run (guardMachine.under GuardsApart) start history s) :
    (∀ e ∈ history, RenewsOwn e) ∧ GuardsStored s := by
  constructor
  · intro e member
    obtain ⟨_, _, moved⟩ := run.recorded member
    obtain ⟨apart, moved⟩ := (Machine.under_step _ _).mp moved
    exact renewsOwn_of_move apart (guardMove_of_step moved)
  · have backed : Backed s := by
      apply run.invariant
      · intro id guard found
        simp [none] at found
      · intro s action s' out backed moved
        obtain ⟨apart, moved⟩ := (Machine.under_step _ _).mp moved
        exact backed.step apart (guardMove_of_step moved)
    intro id guard found live running
    obtain ⟨record, stored, own, -⟩ := backed id guard found live running
    exact ⟨record, stored, own⟩

/-- A guard with background renewal, renewed once, beside a refused second owner. -/
theorem guards_hold_their_locks_renewed : ∃ history s,
    Run (guardMachine.under GuardsApart) ⟨.empty, 0, .empty⟩ history s ∧
      (∀ e ∈ history, RenewsOwn e) ∧ GuardsStored s ∧
      (s.guards.get 0).map (·.leasedUntil) = some (seconds 14) := by
  obtain ⟨history, s, run, seen⟩ := Run.of_observation
    (guardMachine.under GuardsApart) ⟨.empty, 0, .empty⟩
    [.acquire .acquireWithRenewal 0 "r" "a" 10000000000 0, .renewalTick 0,
      .renewalAcquire 0 (seconds 4), .acquire .tryAcquire 1 "r" "b" 10000000000 (seconds 5)]
    (fun reached => (reached.2.guards.get 0).map (·.leasedUntil)) (some (seconds 14)) (by decide)
  obtain ⟨renews, stored⟩ := guards_hold_their_locks rfl run
  exact ⟨history, s, run, renews, stored, seen⟩

/-- A background renewal that saw the flag unset runs after the guard's release:
it succeeds on the free key and stores the record again. And a second guard of
the same owner, released, takes the first one's record with it. -/
theorem released_lock_comes_back :
    ¬ (∀ history s, Run guardMachine ⟨.empty, 0, .empty⟩ history s → ∀ e ∈ history, RenewsOwn e) ∧
    ¬ (∀ history s, Run guardMachine ⟨.empty, 0, .empty⟩ history s → GuardsStored s) := by
  constructor
  · intro renews
    obtain ⟨history, s, run, seen⟩ := Run.of_observation guardMachine ⟨.empty, 0, .empty⟩
      [.acquire .acquireWithRenewal 0 "r" "a" 10000000000 0, .renewalTick 0, .release 0,
        .releaseLock 0 (seconds 4), .renewalAcquire 0 (seconds 4)]
      (fun reached => reached.1.head?.map fun e =>
        (renewalOf e.pre e.act, e.out, e.pre.locks.get "r"))
      (some (some ("r", "a"), .answered true, none)) (by decide)
    cases history with
    | nil => simp at seen
    | cons e older =>
      simp only [List.head?_cons, Option.map_some, Option.some.injEq, Prod.mk.injEq] at seen
      obtain ⟨renewal, success, free⟩ := seen
      have own := (renews _ _ run e List.mem_cons_self).success "r" "a" renewal success
      obtain ⟨record, stored, -⟩ := own
      simp [free] at stored
  · intro stays
    obtain ⟨history, s, run, seen⟩ := Run.of_observation guardMachine ⟨.empty, 0, .empty⟩
      [.acquire .tryAcquire 0 "r" "a" 10000000000 0, .acquire .tryAcquire 1 "r" "a" 10000000000 0,
        .drop 1 true, .releaseLock 1 (seconds 1)]
      (fun reached => (reached.2.clock, reached.2.locks.get "r",
        (reached.2.guards.get 0).map fun guard =>
          (guard.released, guard.resource, decide (seconds 1 ≤ guard.leasedUntil))))
      (seconds 1, none, some (false, "r", true)) (by decide)
    simp only [Prod.mk.injEq, Option.map_eq_some_iff, decide_eq_true_eq] at seen
    obtain ⟨clock, free, ⟨guard, stored, live, named, running⟩⟩ := seen
    obtain ⟨record, present, -⟩ := stays history s run 0 guard stored live (by rw [clock]; exact running)
    simp [named, free] at present

end Roboflow.Tikv
