import Mathlib

/-! The check of `submit.rs` against TOML bombs. Depth and keys are counted in fields of the validator
as it walks a document. Only tables are counted as nesting, and the depth is looked at when a table is
entered, so neither arrays nor the values of a table at the limit are too deep for it. -/
namespace Roboflow.Commands

/-! ### Documents and their check -/

/-- A document. Of a string, a number, a boolean or a date the check reads nothing. The entries of a
table are in the order of its map. -/
inductive TomlValue where
  | scalar
  | array (values : List TomlValue)
  | table (entries : List (String × TomlValue))

def maxTomlNestingDepth : Nat := 32
def maxTomlKeys : Nat := 1000
def maxTomlArraySize : Nat := 10000

structure SafeTomlValidator where
  depth : Nat
  keyCount : Nat
  deriving DecidableEq, Repr

namespace SafeTomlValidator

def new : SafeTomlValidator := ⟨0, 0⟩

def nestingError : String := s!"TOML nesting exceeds maximum depth of {maxTomlNestingDepth}"
def keysError : String := s!"TOML key count exceeds maximum of {maxTomlKeys}"
def arrayError : String := s!"TOML array too large (max {maxTomlArraySize} elements)"

mutual

/-- `SafeTomlValidator::validate`. An error leaves the counts as they are then. -/
def validate (s : SafeTomlValidator) : TomlValue → Except String Unit × SafeTomlValidator
  | .table entries =>
    if s.depth > maxTomlNestingDepth then (.error nestingError, s)
    else
      let s := { s with keyCount := s.keyCount + entries.length }
      if s.keyCount > maxTomlKeys then (.error keysError, s)
      else
        match validateEntries { s with depth := s.depth + 1 } entries with
        | (.error e, s) => (.error e, s)
        | (.ok (), s) => (.ok (), { s with depth := s.depth - 1 })
  | .array values =>
    if values.length > maxTomlArraySize then (.error arrayError, s)
    else validateValues s values
  | .scalar => (.ok (), s)

/-- The loop over an array. -/
def validateValues (s : SafeTomlValidator) : List TomlValue → Except String Unit × SafeTomlValidator
  | [] => (.ok (), s)
  | value :: rest =>
    match validate s value with
    | (.error e, s) => (.error e, s)
    | (.ok (), s) => validateValues s rest

/-- The loop over the values of a table. -/
def validateEntries (s : SafeTomlValidator) :
    List (String × TomlValue) → Except String Unit × SafeTomlValidator
  | [] => (.ok (), s)
  | (_, value) :: rest =>
    match validate s value with
    | (.error e, s) => (.error e, s)
    | (.ok (), s) => validateEntries s rest

end

end SafeTomlValidator

/-! ### The limits -/

/-- A value lies in a document, inside so many tables and arrays. -/
inductive Inside (value : TomlValue) : Nat → Nat → TomlValue → Prop where
  | here : Inside value 0 0 value
  | inArray {child : TomlValue} (member : child ∈ values)
      (within : Inside value tables arrays child) : Inside value tables (arrays + 1) (.array values)
  | inTable {entry : String × TomlValue} (member : entry ∈ entries)
      (within : Inside value tables arrays entry.2) : Inside value (tables + 1) arrays (.table entries)

mutual

/-- The keys of all tables of a document. -/
def keys : TomlValue → Nat
  | .table entries => entries.length + keysOfEntries entries
  | .array values => keysOfValues values
  | .scalar => 0

def keysOfValues : List TomlValue → Nat
  | [] => 0
  | value :: rest => keys value + keysOfValues rest

def keysOfEntries : List (String × TomlValue) → Nat
  | [] => 0
  | (_, value) :: rest => keys value + keysOfEntries rest

end

/-- No value is inside too many tables and arrays. -/
def NestedWithin (document : TomlValue) : Prop :=
  ∀ value tables arrays, Inside value tables arrays document → tables + arrays ≤ maxTomlNestingDepth

/-- No array is too long. -/
def ArraysWithin (document : TomlValue) : Prop :=
  ∀ values tables arrays, Inside (.array values) tables arrays document →
    values.length ≤ maxTomlArraySize

/-- No table is inside too many tables, counted on from a depth. -/
def TablesWithin (depth : Nat) (document : TomlValue) : Prop :=
  ∀ entries tables arrays, Inside (.table entries) tables arrays document →
    depth + tables ≤ maxTomlNestingDepth

/-- A document within the limits. -/
structure WithinLimits (document : TomlValue) : Prop where
  nesting : NestedWithin document
  keys : keys document ≤ maxTomlKeys
  arrays : ArraysWithin document

/-- A fresh validator accepts a document exactly when it is within the limits, and is then back at its
initial depth. -/
structure EnforcesLimits (document : TomlValue) : Prop where
  accepts : (SafeTomlValidator.new.validate document).1 = .ok () ↔ WithinLimits document
  depth : (SafeTomlValidator.new.validate document).1 = .ok () →
    (SafeTomlValidator.new.validate document).2.depth = SafeTomlValidator.new.depth

/-! ### Documents by their parts -/

theorem TomlValue.induct {P : TomlValue → Prop} (scalar : P .scalar)
    (array : ∀ values, (∀ value ∈ values, P value) → P (.array values))
    (table : ∀ entries, (∀ entry ∈ entries, P entry.2) → P (.table entries)) (document : TomlValue) :
    P document := by
  refine @TomlValue.rec P (fun values => ∀ value ∈ values, P value)
    (fun entries => ∀ entry ∈ entries, P entry.2) (fun entry => P entry.2) scalar array table
    (List.forall_mem_nil _) (fun value rest one all => List.forall_mem_cons.mpr ⟨one, all⟩)
    (List.forall_mem_nil _) (fun entry rest one all => List.forall_mem_cons.mpr ⟨one, all⟩)
    (fun _ _ one => one) document

theorem tablesWithin_array (depth : Nat) (values : List TomlValue) :
    TablesWithin depth (.array values) ↔ ∀ value ∈ values, TablesWithin depth value := by
  constructor
  · intro all value member entries tables arrays inside
    exact all entries tables (arrays + 1) (.inArray member inside)
  · intro each entries tables arrays inside
    cases inside with
    | inArray member inside => exact each _ member entries tables _ inside

theorem tablesWithin_table (depth : Nat) (entries : List (String × TomlValue)) :
    TablesWithin depth (.table entries) ↔
      depth ≤ maxTomlNestingDepth ∧ ∀ entry ∈ entries, TablesWithin (depth + 1) entry.2 := by
  constructor
  · intro all
    refine ⟨all entries 0 0 .here, fun entry member inner tables arrays inside => ?_⟩
    have := all inner (tables + 1) arrays (.inTable member inside)
    omega
  · rintro ⟨top, each⟩ inner tables arrays inside
    cases inside with
    | here => exact top
    | inTable member inside =>
      have := each _ member inner _ arrays inside
      omega

theorem arraysWithin_array (values : List TomlValue) :
    ArraysWithin (.array values) ↔
      values.length ≤ maxTomlArraySize ∧ ∀ value ∈ values, ArraysWithin value := by
  constructor
  · intro all
    refine ⟨all values 0 0 .here, fun value member inner tables arrays inside => ?_⟩
    exact all inner tables (arrays + 1) (.inArray member inside)
  · rintro ⟨top, each⟩ inner tables arrays inside
    cases inside with
    | here => exact top
    | inArray member inside => exact each _ member inner tables _ inside

theorem arraysWithin_table (entries : List (String × TomlValue)) :
    ArraysWithin (.table entries) ↔ ∀ entry ∈ entries, ArraysWithin entry.2 := by
  constructor
  · intro all entry member inner tables arrays inside
    exact all inner (tables + 1) arrays (.inTable member inside)
  · intro each inner tables arrays inside
    cases inside with
    | inTable member inside => exact each _ member inner _ arrays inside

theorem keysOfEntries_eq (entries : List (String × TomlValue)) :
    keysOfEntries entries = keysOfValues (entries.map Prod.snd) := by
  induction entries with
  | nil => rfl
  | cons entry rest ih =>
    obtain ⟨key, value⟩ := entry
    rw [keysOfEntries, List.map_cons, keysOfValues, ih]

/-! ### What the check accepts -/

namespace SafeTomlValidator

/-- The values of a loop that the validator accepts, one after the other. -/
structure Accepts (s : SafeTomlValidator) (values : List TomlValue) : Prop where
  tables : ∀ value ∈ values, TablesWithin s.depth value
  keys : s.keyCount + keysOfValues values ≤ maxTomlKeys
  arrays : ∀ value ∈ values, ArraysWithin value

/-- A number of keys more. -/
def counted (s : SafeTomlValidator) (keys : Nat) : SafeTomlValidator :=
  { s with keyCount := s.keyCount + keys }

@[simp] theorem counted_depth (s : SafeTomlValidator) (keys : Nat) : (s.counted keys).depth = s.depth :=
  rfl

theorem counted_counted (s : SafeTomlValidator) (one two : Nat) :
    (s.counted one).counted two = s.counted (one + two) := by
  simp only [counted, Nat.add_assoc]

/-- What is accepted adds its keys and leaves the depth as it was, and the rest is an error. -/
def Decides (s : SafeTomlValidator) (accepted : Prop) (keys : Nat)
    (outcome : Except String Unit × SafeTomlValidator) : Prop :=
  (accepted ∧ outcome = (.ok (), s.counted keys)) ∨
    (¬accepted ∧ ∃ e s', outcome = (.error e, s'))

theorem validateEntries_eq (s : SafeTomlValidator) (entries : List (String × TomlValue)) :
    s.validateEntries entries = s.validateValues (entries.map Prod.snd) := by
  induction entries generalizing s with
  | nil => rfl
  | cons entry rest ih =>
    obtain ⟨key, value⟩ := entry
    simp only [validateEntries, List.map_cons, validateValues, ih]

theorem accepts_cons (s : SafeTomlValidator) (value : TomlValue) (rest : List TomlValue) :
    s.Accepts (value :: rest) ↔ s.Accepts [value] ∧ (s.counted (Commands.keys value)).Accepts rest := by
  constructor
  · rintro ⟨tables, keys, arrays⟩
    rw [List.forall_mem_cons] at tables arrays
    rw [keysOfValues] at keys
    refine ⟨⟨?_, ?_, ?_⟩, tables.2, ?_, arrays.2⟩
    · simpa using tables.1
    · simp only [keysOfValues]
      omega
    · simpa using arrays.1
    · simp only [counted]
      omega
  · rintro ⟨⟨tables, -, arrays⟩, later⟩
    refine ⟨List.forall_mem_cons.mpr ⟨?_, later.tables⟩, ?_, List.forall_mem_cons.mpr ⟨?_, later.arrays⟩⟩
    · exact tables value (List.mem_singleton_self _)
    · have keys := later.keys
      simp only [counted] at keys
      rw [keysOfValues]
      omega
    · exact arrays value (List.mem_singleton_self _)

theorem validateValues_decides (values : List TomlValue)
    (each : ∀ value ∈ values, ∀ s : SafeTomlValidator, s.keyCount ≤ maxTomlKeys →
      s.Decides (s.Accepts [value]) (Commands.keys value) (s.validate value))
    (s : SafeTomlValidator) (room : s.keyCount ≤ maxTomlKeys) :
    s.Decides (s.Accepts values) (keysOfValues values) (s.validateValues values) := by
  induction values generalizing s with
  | nil => exact .inl ⟨⟨List.forall_mem_nil _, room, List.forall_mem_nil _⟩, rfl⟩
  | cons value rest ih =>
    rw [List.forall_mem_cons] at each
    rw [accepts_cons, keysOfValues]
    unfold Decides validateValues
    rcases each.1 s room with ⟨accepted, same⟩ | ⟨refused, e, s', same⟩
    · rw [same]
      dsimp only
      have more : (s.counted (Commands.keys value)).keyCount ≤ maxTomlKeys := by
        have keys := accepted.keys
        simpa [keysOfValues, counted] using keys
      rcases ih each.2 _ more with ⟨later, outcome⟩ | ⟨later, failed⟩
      · refine .inl ⟨⟨accepted, later⟩, ?_⟩
        rw [outcome, counted_counted]
      · exact .inr ⟨fun both => later both.2, failed⟩
    · rw [same]
      exact .inr ⟨fun both => refused both.1, e, s', rfl⟩

theorem accepts_singleton (s : SafeTomlValidator) (document : TomlValue) :
    s.Accepts [document] ↔ TablesWithin s.depth document ∧
      s.keyCount + Commands.keys document ≤ maxTomlKeys ∧ ArraysWithin document := by
  constructor
  · rintro ⟨tables, keys, arrays⟩
    exact ⟨tables _ (List.mem_singleton_self _), keys, arrays _ (List.mem_singleton_self _)⟩
  · rintro ⟨tables, keys, arrays⟩
    exact ⟨List.forall_mem_singleton.mpr tables, keys, List.forall_mem_singleton.mpr arrays⟩

theorem accepts_array (s : SafeTomlValidator) (values : List TomlValue) :
    s.Accepts [.array values] ↔ values.length ≤ maxTomlArraySize ∧ s.Accepts values := by
  rw [accepts_singleton, tablesWithin_array, arraysWithin_array, Commands.keys]
  constructor
  · rintro ⟨tables, keys, size, arrays⟩
    exact ⟨size, tables, keys, arrays⟩
  · rintro ⟨size, tables, keys, arrays⟩
    exact ⟨tables, keys, size, arrays⟩

/-- The validator inside a table. -/
def entered (s : SafeTomlValidator) (entries : List (String × TomlValue)) : SafeTomlValidator :=
  ⟨s.depth + 1, s.keyCount + entries.length⟩

theorem accepts_table (s : SafeTomlValidator) (entries : List (String × TomlValue)) :
    s.Accepts [.table entries] ↔
      s.depth ≤ maxTomlNestingDepth ∧ (s.entered entries).Accepts (entries.map Prod.snd) := by
  rw [accepts_singleton, tablesWithin_table, arraysWithin_table, Commands.keys, keysOfEntries_eq,
    ← Nat.add_assoc]
  constructor
  · rintro ⟨⟨top, tables⟩, keys, arrays⟩
    exact ⟨top, List.forall_mem_map.mpr tables, keys, List.forall_mem_map.mpr arrays⟩
  · rintro ⟨top, tables, keys, arrays⟩
    exact ⟨⟨top, List.forall_mem_map.mp tables⟩, keys, List.forall_mem_map.mp arrays⟩

/-- From any depth and any count of keys within the limit, the walk accepts a document exactly when its
tables, keys and arrays are within the limits counted on from there. -/
theorem validate_decides (document : TomlValue) (s : SafeTomlValidator)
    (room : s.keyCount ≤ maxTomlKeys) :
    s.Decides (s.Accepts [document]) (Commands.keys document) (s.validate document) := by
  induction document using TomlValue.induct generalizing s with
  | scalar =>
    refine .inl ⟨(accepts_singleton ..).mpr ⟨?_, room, ?_⟩, rfl⟩
    · intro entries tables arrays inside
      cases inside
    · intro values tables arrays inside
      cases inside
  | array values each =>
    rw [accepts_array]
    unfold Decides validate
    by_cases long : values.length > maxTomlArraySize
    · rw [if_pos long]
      exact .inr ⟨fun both => by omega, arrayError, s, rfl⟩
    · rw [if_neg long, Commands.keys]
      rcases validateValues_decides values each s room with ⟨accepted, same⟩ | ⟨refused, failed⟩
      · exact .inl ⟨⟨Nat.le_of_not_lt long, accepted⟩, same⟩
      · exact .inr ⟨fun both => refused both.2, failed⟩
  | table entries each =>
    rw [accepts_table]
    unfold Decides validate
    by_cases deep : s.depth > maxTomlNestingDepth
    · rw [if_pos deep]
      exact .inr ⟨fun both => by omega, nestingError, s, rfl⟩
    · rw [if_neg deep]
      dsimp only
      by_cases many : s.keyCount + entries.length > maxTomlKeys
      · rw [if_pos many]
        refine .inr ⟨fun both => ?_, keysError, _, rfl⟩
        have keys := both.2.keys
        simp only [entered] at keys
        omega
      · rw [if_neg many, validateEntries_eq]
        have inner := validateValues_decides (entries.map Prod.snd) (List.forall_mem_map.mpr each)
          (s.entered entries) (Nat.le_of_not_lt many)
        unfold entered at inner
        rcases inner with ⟨accepted, same⟩ | ⟨refused, e, s', same⟩
        · refine .inl ⟨⟨Nat.le_of_not_lt deep, accepted⟩, ?_⟩
          rw [same, Commands.keys, keysOfEntries_eq]
          simp only [counted, Nat.add_sub_cancel, Nat.add_assoc]
        · refine .inr ⟨fun both => refused both.2, e, s', ?_⟩
          rw [same]

end SafeTomlValidator

/-! ### The limits and the check -/

/-- A fresh validator counts tables as nesting, and nothing else. -/
theorem validate_ok_iff (document : TomlValue) :
    (SafeTomlValidator.new.validate document).1 = .ok () ↔
      TablesWithin 0 document ∧ keys document ≤ maxTomlKeys ∧ ArraysWithin document := by
  have decides := SafeTomlValidator.validate_decides document .new (Nat.zero_le _)
  rw [SafeTomlValidator.accepts_singleton] at decides
  simp only [SafeTomlValidator.new, Nat.zero_add] at decides ⊢
  rcases decides with ⟨accepted, same⟩ | ⟨refused, e, s', same⟩
  · rw [same]
    exact iff_of_true rfl accepted
  · rw [same]
    exact iff_of_false (fun ok => by cases ok) refused

/-- An accepted document leaves the depth as it was, from any depth. -/
theorem validate_depth (document : TomlValue) (ok : (SafeTomlValidator.new.validate document).1 = .ok ()) :
    (SafeTomlValidator.new.validate document).2.depth = SafeTomlValidator.new.depth := by
  have decides := SafeTomlValidator.validate_decides document .new (Nat.zero_le _)
  rcases decides with ⟨accepted, same⟩ | ⟨refused, e, s', same⟩
  · rw [same]
    rfl
  · rw [same] at ok
    cases ok

theorem NestedWithin.tables (nested : NestedWithin document) : TablesWithin 0 document := by
  intro entries tables arrays inside
  have := nested _ tables arrays inside
  omega

/-- The check enforces the limits on a document if and only if no value of it is inside too many tables
and arrays together, or it exceeds another limit anyway: a table inside too many tables, too many keys,
or too long an array. -/
theorem enforces_limits_iff (document : TomlValue) :
    EnforcesLimits document ↔
      NestedWithin document ∨ ¬TablesWithin 0 document ∨ maxTomlKeys < keys document ∨
        ¬ArraysWithin document := by
  constructor
  · rintro ⟨accepts, -⟩
    by_contra none_
    simp only [not_or, not_not, not_lt] at none_
    obtain ⟨deep, tables, few, arrays⟩ := none_
    have ok := (validate_ok_iff document).mpr ⟨tables, few, arrays⟩
    exact deep (accepts.mp ok).nesting
  · intro condition
    refine ⟨?_, validate_depth document⟩
    rw [validate_ok_iff]
    constructor
    · rintro ⟨tables, few, arrays⟩
      rcases condition with nested | deep | many | long
      · exact ⟨nested, few, arrays⟩
      · exact absurd tables deep
      · omega
      · exact absurd arrays long
    · rintro ⟨nested, few, arrays⟩
      exact ⟨nested.tables, few, arrays⟩

/-! ### Nested arrays -/

def nestedArrays : Nat → TomlValue
  | 0 => .scalar
  | n + 1 => .array [nestedArrays n]

theorem inside_nestedArrays (n : Nat) : Inside .scalar 0 n (nestedArrays n) := by
  induction n with
  | zero => exact .here
  | succ n ih => exact .inArray (List.mem_singleton_self _) ih

/-- Thirty-three arrays, each in the one before it, are accepted. -/
theorem nested_arrays_accepted :
    (SafeTomlValidator.new.validate (nestedArrays 33)).1 = .ok () ∧ ¬EnforcesLimits (nestedArrays 33) := by
  have accepted : (SafeTomlValidator.new.validate (nestedArrays 33)).1 = .ok () := rfl
  refine ⟨accepted, fun enforces => ?_⟩
  have within := (enforces.accepts.mp accepted).nesting _ _ _ (inside_nestedArrays 33)
  exact absurd within (by decide)

end Roboflow.Commands
