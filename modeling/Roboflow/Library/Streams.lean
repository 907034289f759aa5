import Roboflow.Library.Machine

/-! Reads of a content one after the other, each from where the one before it ended. Whatever
lengths are asked for, what the reads give up to one that finds nothing is the rest of the content. -/
namespace Library

variable {α : Type} {content : List α} {position : Nat}

/-- A read at a position gives what is there, at most as much as asked for and something unless
nothing was asked for or is left, and moves on by as much. -/
structure ReadsAt (content : List α) (position length : Nat) (bytes : List α) (after : Nat) :
    Prop where
  exact_ : bytes = (content.drop position).take bytes.length
  asked : bytes.length ≤ length
  progress : bytes = [] → length = 0 ∨ content.length ≤ position
  moved : after = position + bytes.length

/-- A read of a number of bytes that are there. -/
theorem ReadsAt.take {length n : Nat} (asked : n ≤ length) (within : position + n ≤ content.length)
    (progress : 0 < n ∨ length = 0) :
    ReadsAt content position length ((content.drop position).take n) (position + n) := by
  have given : ((content.drop position).take n).length = n := by
    rw [List.length_take, List.length_drop]
    omega
  refine ⟨by rw [given], by rw [given]; exact asked, fun nothing => .inl ?_, by rw [given]⟩
  rw [nothing, List.length_nil] at given
  exact progress.resolve_left (by omega)

theorem ReadsAt.at_end {length : Nat} (ended : content.length ≤ position) :
    ReadsAt content position length [] position :=
  ⟨rfl, Nat.zero_le _, fun _ => .inr ended, rfl⟩

/-- Reads with room for something, in order, with what each gave. -/
inductive ReadsFrom (content : List α) (position : Nat) : List (List α) → Nat → Prop where
  | start : ReadsFrom content position [] position
  | next (before : ReadsFrom content position chunks between)
      (read : ReadsAt content between asked bytes after) (room : 0 < asked) :
      ReadsFrom content position (chunks ++ [bytes]) after

namespace ReadsFrom

variable {chunks : List (List α)} {stop : Nat}

theorem flatten_eq (reads : ReadsFrom content position chunks stop) :
    chunks.flatten = (content.drop position).take chunks.flatten.length ∧
      stop = position + chunks.flatten.length := by
  induction reads with
  | start => exact ⟨rfl, rfl⟩
  | next before read room ih =>
    obtain ⟨flat, rfl⟩ := ih
    have more := read.exact_
    refine ⟨?_, ?_⟩
    · rw [List.flatten_concat, List.length_append, List.take_add, List.drop_drop, ← more, ← flat]
    · rw [read.moved, List.flatten_concat, List.length_append, Nat.add_assoc]

/-- Up to a read that gave nothing. -/
theorem flatten_of_ended (reads : ReadsFrom content position chunks stop)
    (ended : chunks.getLast? = some []) : chunks.flatten = content.drop position := by
  cases reads with
  | start => cases ended
  | next before read room =>
    rw [List.getLast?_concat, Option.some.injEq] at ended
    obtain rfl := ended
    obtain ⟨flat, rfl⟩ := before.flatten_eq
    have past := (read.progress rfl).resolve_left (Nat.ne_of_gt room)
    rw [List.flatten_concat, List.append_nil, flat, List.take_of_length_le]
    rw [List.length_drop]
    omega

/-- Reads that each gave something are no more than there is to read. -/
theorem length_le (reads : ReadsFrom content position chunks stop)
    (some_ : ∀ bytes ∈ chunks, bytes ≠ []) : chunks.length ≤ content.length - position := by
  have each : chunks.length ≤ chunks.flatten.length := by
    clear reads
    induction chunks with
    | nil => exact Nat.zero_le _
    | cons bytes rest ih =>
      have first := List.length_pos_of_ne_nil (some_ bytes List.mem_cons_self)
      have others := ih fun other member => some_ other (List.mem_cons_of_mem _ member)
      rw [List.flatten_cons, List.length_append, List.length_cons]
      omega
  have given := congrArg List.length reads.flatten_eq.1
  rw [List.length_take, List.length_drop] at given
  omega

end ReadsFrom

end Library
