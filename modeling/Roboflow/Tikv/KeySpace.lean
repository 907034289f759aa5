import Roboflow.Library.Bytes

/-! Keys as `tikv/key.rs` builds them and prefix scans as `tikv/client.rs` issues
them: the parts of a key are joined by slashes, and a scan asks for the byte range
from the prefix up to the prefix followed by `0xFF`. -/
namespace Roboflow.Tikv
open Library

/-- `KEY_PREFIX` of `tikv/config.rs`. -/
def keyPrefix : String := "/roboflow/v1/"

/-- `str::trim_end_matches('/')`. -/
def trimEndSlashes (s : String) : String :=
  String.ofList (s.toList.reverse.dropWhile (· = '/')).reverse

/-- `KeyBuilder::build_with_prefix`, as text. -/
def buildWithPrefix (start : String) (parts : List String) : String :=
  parts.foldl (fun key part => key ++ "/" ++ part) start

/-- `KeyBuilder::build`. -/
def buildKey (parts : List String) : Bytes := utf8 (buildWithPrefix (trimEndSlashes keyPrefix) parts)

/-- The range `TikvClient::scan` asks for. -/
def inScan (start key : Bytes) : Bool := start ≤ key && key < start ++ [0xFF]

/-- `TikvClient::scan`. -/
def scan (store : Kv Bytes ν) (start : Bytes) (limit : Nat) : List (Bytes × ν) :=
  store.scan (inScan start) limit

/-- A scan selects the keys its prefix is a prefix of; no encoded text contains
the byte `0xFF`. -/
theorem inScan_utf8 {start : Bytes} {key : String} :
    inScan start (utf8 key) = true ↔ start <+: utf8 key := by
  rw [inScan, Bool.and_eq_true, decide_eq_true_eq, decide_eq_true_eq]
  exact mem_range_top_iff (utf8_lt_top key)

/-! ### Keys made of parts without slashes -/

def SlashFree (part : String) : Prop := '/' ∉ part.toList

theorem buildWithPrefix_toList (start : String) (parts : List String) :
    (buildWithPrefix start parts).toList = start.toList ++ parts.flatMap fun part => '/' :: part.toList := by
  unfold buildWithPrefix
  induction parts generalizing start with
  | nil => simp
  | cons part rest ih =>
    rw [List.foldl_cons, ih]
    simp [String.toList_append]

/-- A part ends at the first slash after it. -/
theorem part_of_append {part other : List Char} (free : '/' ∉ part) (otherFree : '/' ∉ other)
    {rest remaining : List Char} (slash : ∀ c ∈ rest.head?, c = '/') (slash' : ∀ c ∈ remaining.head?, c = '/')
    (same : part ++ rest = other ++ remaining) : part = other ∧ rest = remaining := by
  induction part generalizing other with
  | nil =>
    cases other with
    | nil => exact ⟨rfl, same⟩
    | cons c other =>
      rw [List.nil_append] at same
      have first := slash c (by simp [same])
      exact absurd (first ▸ List.mem_cons_self) otherFree
  | cons c part ih =>
    cases other with
    | nil =>
      rw [List.nil_append] at same
      have first := slash' c (by simp [← same])
      exact absurd (first ▸ List.mem_cons_self) free
    | cons d other =>
      simp only [List.cons_append, List.cons.injEq] at same
      obtain ⟨rfl, same⟩ := same
      obtain ⟨rfl, tails⟩ := ih (fun slashed => free (List.mem_cons_of_mem _ slashed))
        (fun slashed => otherFree (List.mem_cons_of_mem _ slashed)) same
      exact ⟨rfl, tails⟩

theorem head_flatMap_slash (parts : List String) :
    ∀ c ∈ (parts.flatMap fun part => '/' :: part.toList).head?, c = '/' := by
  cases parts with
  | nil => simp
  | cons part rest => simp

/-- Keys of slash-free parts are built from one list of parts only. -/
theorem buildKey_injective {parts others : List String} (free : ∀ part ∈ parts, SlashFree part)
    (otherFree : ∀ part ∈ others, SlashFree part) (same : buildKey parts = buildKey others) :
    parts = others := by
  rw [buildKey, buildKey, utf8_inj, ← String.toList_inj, buildWithPrefix_toList,
    buildWithPrefix_toList, List.append_cancel_left_eq] at same
  induction parts generalizing others with
  | nil =>
    cases others with
    | nil => rfl
    | cons other others => simp at same
  | cons part parts ih =>
    cases others with
    | nil => simp at same
    | cons other others =>
      rw [List.flatMap_cons, List.flatMap_cons, List.cons_append, List.cons_append, List.cons.injEq] at same
      obtain ⟨first, rest⟩ := part_of_append (free part List.mem_cons_self)
        (otherFree other List.mem_cons_self) (head_flatMap_slash parts) (head_flatMap_slash others) same.2
      rw [String.toList_inj.mp first,
        ih (fun p member => free p (List.mem_cons_of_mem _ member))
          (fun p member => otherFree p (List.mem_cons_of_mem _ member)) rest]

end Roboflow.Tikv
