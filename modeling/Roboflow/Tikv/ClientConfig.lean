import Mathlib

/-! The configuration of the TiKV client and what it can fail with, `tikv/config.rs` and
`tikv/error.rs`, and the validators of `roboflow-core` that the configuration is checked
with. Durations are in nanoseconds. -/
namespace Roboflow.Tikv

inductive TikvError where
  | connectionFailed (message : String)
  | transactionAborted (message : String)
  | keyNotFound (key : String)
  | serialization (message : String)
  | deserialization (message : String)
  | casFailed (expected got : Nat)
  | lockAcquisitionFailed (message : String)
  | invalidConfig (message : String)
  | timeout (message : String)
  | writeConflict
  | clientError (message : String)
  | retryable (attempt max : Nat) (message : String)
  | other (message : String)
  | circuitOpen (failures : Nat)
  deriving DecidableEq, Repr

/-- `str::contains`. -/
def contains (text pattern : String) : Bool := pattern.toList <:+: text.toList

namespace TikvError

def isRetryable : TikvError → Bool
  | .writeConflict => true
  | .retryable _ _ _ => true
  | .timeout _ => true
  | .connectionFailed _ => true
  | .transactionAborted message =>
    contains message "WriteConflict" || contains message "Write Conflict" ||
      contains message "key_version"
  | .clientError message =>
    contains message "WriteConflict" || contains message "Write Conflict" ||
      contains message "key_version" || contains message "PessimisticLock" ||
      contains message "PessimisticRetry"
  | .lockAcquisitionFailed _ => true
  | _ => false

def isWriteConflict : TikvError → Bool
  | .writeConflict => true
  | .clientError message => contains message "WriteConflict" || contains message "key_version"
  | .transactionAborted message => contains message "WriteConflict" || contains message "key_version"
  | _ => false

theorem isRetryable_of_isWriteConflict (error : TikvError) (conflict : error.isWriteConflict) :
    error.isRetryable := by
  cases error <;> simp_all [isWriteConflict, isRetryable] <;> grind

end TikvError

/-! ### Validation -/

/-- `RoboflowError::parse` as it is displayed. -/
def parseError (context message : String) : String :=
  "[PARSE-1001] Parse error in '" ++ context ++ "': " ++ message

namespace Validators

def notEmpty (value : List α) (field : String) : Except String Unit :=
  if value.isEmpty then .error (parseError field "must not be empty") else .ok ()

def startsWith (value start field : String) : Except String Unit :=
  if start.toList <+: value.toList then .ok ()
  else .error (parseError field ("must start with '" ++ start ++ "' (got '" ++ value ++ "')"))

def paired (a b : Option α) (fieldA fieldB : String) : Except String Unit :=
  if a.isSome = b.isSome then .ok ()
  else .error (parseError fieldA
    ("must be set together with '" ++ fieldB ++ "' (one is set, other is not)"))

def positive (value : Int) (field : String) : Except String Unit :=
  if 0 < value then .ok ()
  else .error (parseError field ("must be greater than 0 (got " ++ toString value ++ ")"))

end Validators

/-- What `validate` and the retry loops read. The endpoints and paths are opaque. -/
structure TikvConfig where
  pdEndpoints : List String
  keyPrefix : String
  certPath : Option String
  keyPath : Option String
  operationTimeout : Nat
  transactionTimeout : Nat
  defaultLockTtlSecs : Int
  maxRetries : Nat
  retryBaseDelayMs : Nat
  retriesFit : maxRetries < 2 ^ 32 := by decide
  delayFits : retryBaseDelayMs < 2 ^ 64 := by decide

namespace TikvConfig

/-- `Duration::as_secs`. -/
def asSecs (duration : Nat) : Nat := duration / 1000000000

def validate (config : TikvConfig) : Except TikvError Unit :=
  Except.mapError TikvError.invalidConfig do
    Validators.notEmpty config.pdEndpoints "pd_endpoints"
    Validators.startsWith config.keyPrefix "/" "key_prefix"
    Validators.paired config.certPath config.keyPath "cert_path" "key_path"
    Validators.positive (asSecs config.operationTimeout) "operation_timeout"
    Validators.positive (asSecs config.transactionTimeout) "transaction_timeout"
    Validators.positive config.defaultLockTtlSecs "default_lock_ttl_secs"
    Validators.positive config.maxRetries "max_retries"

theorem default_retries_fit : 10 < 2 ^ 32 := by norm_num

/-- The parts of `TikvConfig::default` without an environment. -/
def default : TikvConfig where
  pdEndpoints := ["host.docker.internal:2379"]
  keyPrefix := "/roboflow/v1/"
  certPath := none
  keyPath := none
  operationTimeout := 30 * 1000000000
  transactionTimeout := 60 * 1000000000
  defaultLockTtlSecs := 60
  maxRetries := 10
  retryBaseDelayMs := 50
  retriesFit := default_retries_fit

/-- The default configuration passes its own check, with any number of retries but none. -/
theorem default_valid (retries : Nat) (fits : retries < 2 ^ 32) (some_ : 0 < retries) :
    { default with maxRetries := retries, retriesFit := fits }.validate = .ok () := by
  have positive : Validators.positive retries "max_retries" = .ok () :=
    if_pos (Int.natCast_pos.mpr some_)
  simp only [validate, default, positive]
  rfl

end TikvConfig

end Roboflow.Tikv
