import Roboflow.Library.Kv
import Roboflow.Library.Machine
import Roboflow.Lerobot.VideoBuffers

/-! The episode statistics of a batch: the summary they are added to, `stats/types.rs`, and
the TiKV collector, `stats/tikv_collector.rs`, used by any number of workers at once. Both
count the writes of episodes, and a repeated episode is written to the same place. -/
namespace Roboflow.Stats
open Library

/-- The fields of `EpisodeStats` that are read. -/
structure EpisodeStats where
  episodeIndex : Nat
  frameCount : Nat
  deriving DecidableEq

/-! ### The summary -/

structure BatchStatsSummary where
  totalEpisodes : Nat
  totalFrames : Nat
  episodes : Kv Nat EpisodeStats

namespace BatchStatsSummary

def new : BatchStatsSummary := ⟨0, 0, .empty⟩

def addEpisode (summary : BatchStatsSummary) (stats : EpisodeStats) : BatchStatsSummary where
  totalFrames := summary.totalFrames + stats.frameCount
  totalEpisodes := summary.totalEpisodes + 1
  episodes := summary.episodes.put stats.episodeIndex stats

/-- The frames of the episodes in the map. -/
def storedFrames (summary : BatchStatsSummary) : Nat :=
  (summary.episodes.entries.map fun entry => entry.2.frameCount).sum

/-- The totals are those of the episodes in the map. -/
structure Consistent (summary : BatchStatsSummary) : Prop where
  episodes : summary.totalEpisodes = summary.episodes.entries.length
  frames : summary.totalFrames = summary.storedFrames

/-! Every episode added counts, and at most one of an index is in the map. -/

end BatchStatsSummary

/-! ### The collector -/

namespace StatsKeys

def batchMeta (batchId : String) : String := "stats/" ++ batchId ++ "/meta"

def episode (batchId : String) (episodeIndex : Nat) : String :=
  "stats/" ++ batchId ++ "/episode/" ++ Lerobot.padded 0 episodeIndex

theorem batchMeta_injective (same : batchMeta one = batchMeta other) : one = other := by
  have lists := congrArg String.toList same
  simp only [batchMeta, String.toList_append, List.append_assoc] at lists
  exact String.toList_injective (List.append_cancel_right (List.append_cancel_left lists))

/-- An episode's key as its parts before and after the last separator. -/
theorem episode_toList (batchId : String) (index : Nat) : (episode batchId index).toList =
    ("stats/".toList ++ batchId.toList ++ "/episode".toList) ++ '/' :: (Lerobot.padded 0 index).toList := by
  simp [episode]

theorem episode_injective (same : episode one i = episode other j) : one = other ∧ i = j := by
  have lists := congrArg String.toList same
  rw [episode_toList, episode_toList] at lists
  obtain ⟨starts, digits⟩ := Lerobot.split_at_last (Lerobot.slash_not_mem_padded 0 i)
    (Lerobot.slash_not_mem_padded 0 j) lists
  rw [List.append_assoc, List.append_assoc] at starts
  exact ⟨String.toList_injective (List.append_cancel_right (List.append_cancel_left starts)),
    Lerobot.padded_injective (String.toList_injective digits)⟩

theorem batchMeta_ne_episode : batchMeta one ≠ episode other i := by
  intro same
  have lists := congrArg String.toList same
  have parts : (batchMeta one).toList = ("stats/".toList ++ one.toList) ++ '/' :: "meta".toList := by
    simp [batchMeta]
  rw [parts, episode_toList] at lists
  have digits := (Lerobot.split_at_last (by decide) (Lerobot.slash_not_mem_padded 0 i) lists).2
  have digit : 'm' ∈ (Lerobot.padded 0 i).toList := by
    rw [← digits]
    decide
  exact absurd (Lerobot.isDigit_of_mem_padded digit) (by decide)

end StatsKeys

/-- The keys of all batches. -/
inductive StatsKey where
  | batchMeta (batchId : String)
  | episode (batchId : String) (episodeIndex : Nat)

def StatsKey.bytes : StatsKey → String
  | .batchMeta batchId => StatsKeys.batchMeta batchId
  | .episode batchId episodeIndex => StatsKeys.episode batchId episodeIndex

/-- No two keys are the same, whatever the names of the batches. -/
theorem StatsKey.bytes_injective : Function.Injective StatsKey.bytes := by
  intro one other same
  cases one with
  | batchMeta batchId =>
    cases other with
    | batchMeta otherId => rw [StatsKeys.batchMeta_injective same]
    | episode otherId index => exact absurd same StatsKeys.batchMeta_ne_episode
  | episode batchId index =>
    cases other with
    | batchMeta otherId => exact absurd same.symm StatsKeys.batchMeta_ne_episode
    | episode otherId otherIndex =>
      obtain ⟨rfl, rfl⟩ := StatsKeys.episode_injective same
      rfl

/-- What is stored under the keys of one batch: every key has its own place. -/
structure BatchStore where
  batchMeta : Option Nat
  episodes : Kv Nat EpisodeStats

/-- Where a `record_episode_stats` is between two of its `TikvClient` calls. -/
inductive RecordCall where
  /-- Before the put of the episode. -/
  | putting (batchId : String) (stats : EpisodeStats)
  /-- Before the get of the count. -/
  | counting (batchId : String)
  /-- Before the put of the count, with the count it read. -/
  | incrementing (batchId : String) (current : Nat)

structure CollectorState where
  stored : String → BatchStore
  calls : Kv Nat RecordCall

inductive CollectorAction where
  | record (task : Nat) (batchId : String) (stats : EpisodeStats)
  | putEpisode (task : Nat)
  | getCount (task : Nat)
  | putCount (task : Nat)
  /-- The call at hand fails and changes nothing. -/
  | clientError (task : Nat)

inductive CollectorOut where
  | working
  | recorded
  | failed
  deriving DecidableEq

namespace CollectorState

def initial : CollectorState := ⟨fun _ => ⟨none, .empty⟩, .empty⟩

def setCall (s : CollectorState) (task : Nat) (call : RecordCall) : CollectorState :=
  { s with calls := s.calls.put task call }

def endCall (s : CollectorState) (task : Nat) : CollectorState :=
  { s with calls := s.calls.delete task }

def setBatch (s : CollectorState) (batchId : String) (batch : BatchStore) : CollectorState :=
  { s with stored := Function.update s.stored batchId batch }

/-- What the get of a batch's count reads. -/
def count (s : CollectorState) (batchId : String) : Nat := (s.stored batchId).batchMeta.getD 0

/-- How many episode keys a batch has. -/
def episodeKeys (s : CollectorState) (batchId : String) : Nat :=
  (s.stored batchId).episodes.entries.length

end CollectorState

/-- The workers of a `TiKVStatsCollector`. The count is a `u64` that no batch fills. -/
def collector : Machine CollectorState CollectorAction CollectorOut where
  step s
    | .record task batchId stats =>
      match s.calls.get task with
      | none => some (s.setCall task (.putting batchId stats), .working)
      | some _ => none
    | .putEpisode task =>
      match s.calls.get task with
      | some (.putting batchId stats) =>
        let batch := s.stored batchId
        some ((s.setBatch batchId { batch with
          episodes := batch.episodes.put stats.episodeIndex stats }).setCall task (.counting batchId), .working)
      | _ => none
    | .getCount task =>
      match s.calls.get task with
      | some (.counting batchId) =>
        some (s.setCall task (.incrementing batchId (s.count batchId)), .working)
      | _ => none
    | .putCount task =>
      match s.calls.get task with
      | some (.incrementing batchId current) =>
        some ((s.setBatch batchId { s.stored batchId with batchMeta := some (current + 1) }).endCall task,
          .recorded)
      | _ => none
    | .clientError task =>
      match s.calls.get task with
      | some _ => some (s.endCall task, .failed)
      | none => none

/-- The count of every batch is the number of its episode keys. -/
def Counted (s : CollectorState) : Prop := ∀ batchId, s.count batchId = s.episodeKeys batchId

/-- What each step has to keep to: the key that is put is new, the count that is put was read
from the count that is stored, and no call fails after its episode was put. -/
def Undisturbed (s : CollectorState) : CollectorAction → Prop
  | .record _ _ _ => True
  | .putEpisode task =>
    match s.calls.get task with
    | some (.putting batchId stats) => (s.stored batchId).episodes.get stats.episodeIndex = none
    | _ => True
  | .getCount _ => True
  | .putCount task =>
    match s.calls.get task with
    | some (.incrementing batchId current) => current = s.count batchId
    | _ => True
  | .clientError task =>
    match s.calls.get task with
    | some (.counting _) => False
    | some (.incrementing _ _) => False
    | _ => True

/-! ### The counts still owed -/

/-- A call that has put its episode and not yet its count. -/
def RecordCall.owes (batchId : String) : RecordCall → Nat
  | .putting _ _ => 0
  | .counting other => if other = batchId then 1 else 0
  | .incrementing other _ => if other = batchId then 1 else 0

def CollectorState.owed (s : CollectorState) (batchId : String) : Nat :=
  (s.calls.entries.map fun entry => entry.2.owes batchId).sum

section
variable {s s' : CollectorState} {action : CollectorAction} {out : CollectorOut}

end

end Roboflow.Stats
