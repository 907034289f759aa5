import Mathlib

/-! The records of `tikv/schema.rs` that the coordination code reads and writes.
`Utc::now()` is an argument of every method that reads the clock, so that a step
of the cluster decides what the clock read.

Times are unbounded. A call whose expiry leaves chrono's range panics before it
writes anything, and takes no step here. -/
namespace Roboflow

/-- `DateTime<Utc>`, in nanoseconds since the epoch. -/
abbrev Time := Int

/-- `chrono::Duration::seconds`. -/
def seconds (n : Int) : Time := n * 1000000000

namespace Tikv

/-- `HeartbeatRecord`, the fields the reaper reads. -/
structure HeartbeatRecord where
  podId : String
  lastHeartbeat : Time
  deriving DecidableEq

/-- `HeartbeatRecord::is_stale`. -/
def HeartbeatRecord.isStale (record : HeartbeatRecord) (timeoutSeconds : Int) (now : Time) : Bool :=
  seconds timeoutSeconds < now - record.lastHeartbeat

structure LockRecord where
  resource : String
  owner : String
  version : Nat
  expiresAt : Time
  acquiredAt : Time
  deriving DecidableEq

namespace LockRecord

def new (resource owner : String) (ttlSeconds : Int) (now : Time) : LockRecord where
  resource := resource
  owner := owner
  version := 1
  expiresAt := now + seconds ttlSeconds
  acquiredAt := now

def isExpired (lock : LockRecord) (now : Time) : Bool := lock.expiresAt < now

/-- `LockRecord::extend`; the version is a `u64` and wraps. -/
def extend (lock : LockRecord) (ttlSeconds : Int) (now : Time) : LockRecord :=
  { lock with
    expiresAt := now + seconds ttlSeconds
    version := (lock.version + 1) % 2 ^ 64 }

def isOwnedBy (lock : LockRecord) (podId : String) : Bool := lock.owner = podId

/-- `LockRecord::fencing_token`. -/
def fencingToken (lock : LockRecord) : Nat := lock.version

end LockRecord

end Tikv

end Roboflow
