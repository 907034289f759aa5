import Roboflow.Library.IterationOrder
import Roboflow.Lerobot.VideoBuffers

/-! The conversion of an aligned frame with its hash maps iterated in any order. The
conversion of `Roboflow.Lerobot.Writer` is the one in key order. -/
namespace Roboflow.Lerobot
open Library
open Roboflow.Alignment (AlignedFrame ImageData)

variable {Value : Type}

/-- A frame with the orders in which its hash maps are iterated. -/
structure IteratedFrame (Value : Type) where
  frame : AlignedFrame Value
  states : List (String × List Value)
  actions : List (String × List Value)
  images : List (String × ImageData)
  statesPerm : states.Perm frame.states.entries
  actionsPerm : actions.Perm frame.actions.entries
  imagesPerm : images.Perm frame.images.entries

namespace IteratedFrame

def inKeyOrder (frame : AlignedFrame Value) : IteratedFrame Value :=
  ⟨frame, frame.states.entries, frame.actions.entries, frame.images.entries, .rfl, .rfl, .rfl⟩

/-- The state that is taken for the observation, with its feature. -/
def observation (it : IteratedFrame Value) : Option (String × List Value) :=
  it.states.find? fun entry => isObservation entry.1

def action (it : IteratedFrame Value) : Option (String × List Value) := it.actions.head?

/-- `from_aligned_frame`, which inserts an image reference for each camera. -/
def fromAlignedFrame (it : IteratedFrame Value) (episodeIndex : Nat) : LerobotFrame Value where
  episodeIndex := episodeIndex
  frameIndex := it.frame.frameIndex
  index := it.frame.frameIndex
  timestamp := it.frame.timestamp
  observationState := it.observation.map Prod.snd
  action := it.action.map Prod.snd
  taskIndex := none
  imageFrames := Kv.empty.putAll (it.images.map fun entry =>
    (entry.1, videoPath 0 entry.1 episodeIndex, it.frame.timestamp))

end IteratedFrame

/-- The states whose feature names are those of an observation. -/
def observations (frame : AlignedFrame Value) : List (String × List Value) :=
  frame.states.entries.filter fun entry => isObservation entry.1

/-- The conversion of the frames does not depend on iteration orders, the feature chosen
in one frame is the one chosen in every frame that contains it, and all chosen are one. -/
structure OrderFree (frames : List (AlignedFrame Value)) : Prop where
  equal : ∀ a b : IteratedFrame Value, a.frame = b.frame → a.frame ∈ frames →
    ∀ episodeIndex, a.fromAlignedFrame episodeIndex = b.fromAlignedFrame episodeIndex
  chosenState : ∀ run : List (IteratedFrame Value), run.map (·.frame) = frames →
    ∀ a ∈ run, ∀ b ∈ run, ∀ entry ∈ a.observation, b.frame.states.get entry.1 ≠ none →
      ∃ other ∈ b.observation, other.1 = entry.1
  chosenAction : ∀ run : List (IteratedFrame Value), run.map (·.frame) = frames →
    ∀ a ∈ run, ∀ b ∈ run, ∀ entry ∈ a.action, b.frame.actions.get entry.1 ≠ none →
      ∃ other ∈ b.action, other.1 = entry.1
  oneState : ∀ run : List (IteratedFrame Value), run.map (·.frame) = frames →
    ∀ a ∈ run, ∀ b ∈ run, ∀ entry ∈ a.observation, ∀ other ∈ b.observation, entry.1 = other.1
  oneAction : ∀ run : List (IteratedFrame Value), run.map (·.frame) = frames →
    ∀ a ∈ run, ∀ b ∈ run, ∀ entry ∈ a.action, ∀ other ∈ b.action, entry.1 = other.1

/-- Nothing to choose between: one value in each frame, one feature in any two. -/
structure Unambiguous (frames : List (AlignedFrame Value)) : Prop where
  stateValues : ∀ frame ∈ frames, ∀ entry ∈ observations frame, ∀ other ∈ observations frame,
    entry.2 = other.2
  actionValues : ∀ frame ∈ frames, ∀ entry ∈ frame.actions.entries,
    ∀ other ∈ frame.actions.entries, entry.2 = other.2
  stateNames : frames.Pairwise fun frame later =>
    ∀ entry ∈ observations frame, ∀ other ∈ observations later, entry.1 = other.1
  actionNames : frames.Pairwise fun frame later =>
    ∀ entry ∈ frame.actions.entries, ∀ other ∈ later.actions.entries, entry.1 = other.1

namespace IteratedFrame

variable {it : IteratedFrame Value} {frame : AlignedFrame Value} {entry : String × List Value}

theorem mem_observations (found : entry ∈ it.observation) : entry ∈ observations it.frame := by
  obtain ⟨member, fit⟩ := fits_of_find? it.statesPerm (Option.mem_def.mp found)
  exact List.mem_filter.mpr ⟨member, fit⟩

theorem mem_actions (found : entry ∈ it.action) : entry ∈ it.frame.actions.entries :=
  it.actionsPerm.mem_iff.mp (List.mem_of_head? (Option.mem_def.mp found))

/-- Any matching state is the one taken in some order. -/
theorem exists_observing (member : entry ∈ observations frame) :
    ∃ it : IteratedFrame Value, it.frame = frame ∧ it.observation = some entry := by
  obtain ⟨listed, fit⟩ := List.mem_filter.mp member
  obtain ⟨order, perm, found⟩ := exists_order_find?
    (fun entry : String × List Value => isObservation entry.1) listed fit
  exact ⟨⟨frame, order, frame.actions.entries, frame.images.entries, perm, .rfl, .rfl⟩, rfl, found⟩

theorem exists_acting (member : entry ∈ frame.actions.entries) :
    ∃ it : IteratedFrame Value, it.frame = frame ∧ it.action = some entry := by
  obtain ⟨order, perm, found⟩ := exists_order_find? (fun _ => true) member rfl
  exact ⟨⟨frame, frame.states.entries, order, frame.images.entries, .rfl, perm, .rfl⟩, rfl,
    (head?_eq_find? order).trans found⟩

/-- The image references do not depend on the order. -/
theorem imageFrames_eq (it : IteratedFrame Value) (episodeIndex : Nat) :
    (it.fromAlignedFrame episodeIndex).imageFrames =
      (LerobotFrame.fromAlignedFrame it.frame episodeIndex).imageFrames := by
  exact Kv.putAll_of_perm (it.imagesPerm.map _)

/-- In key order the conversion is the writer's. -/
theorem fromAlignedFrame_inKeyOrder (frame : AlignedFrame Value) (episodeIndex : Nat) :
    (inKeyOrder frame).fromAlignedFrame episodeIndex =
      LerobotFrame.fromAlignedFrame frame episodeIndex := by
  have images := imageFrames_eq (inKeyOrder frame) episodeIndex
  simp only [fromAlignedFrame, LerobotFrame.fromAlignedFrame, observation, action, inKeyOrder] at images ⊢
  rw [images]

/-- Iterations of some of the frames extend to iterations of all. -/
theorem exists_run (chosen : List (IteratedFrame Value)) {frames : List (AlignedFrame Value)}
    (some_ : (chosen.map (·.frame)).Sublist frames) :
    ∃ run : List (IteratedFrame Value), run.map (·.frame) = frames ∧ chosen.Sublist run := by
  generalize named : chosen.map (·.frame) = own at some_
  induction some_ generalizing chosen with
  | slnil => exact ⟨[], rfl, by rw [List.map_eq_nil_iff.mp named]⟩
  | cons frame _ ih =>
    obtain ⟨run, same, within⟩ := ih chosen named
    exact ⟨inKeyOrder frame :: run, by rw [List.map_cons, same]; rfl, within.cons _⟩
  | cons_cons frame _ ih =>
    obtain ⟨it, rest, rfl, rfl, rfl⟩ := List.map_eq_cons_iff.mp named
    obtain ⟨run, same, within⟩ := ih rest rfl
    exact ⟨it :: run, by rw [List.map_cons, same], within.cons_cons _⟩

end IteratedFrame

/-! ### When the order does not show -/

variable {frames : List (AlignedFrame Value)}

/-- Two positions of the sequence, iterated as one likes. -/
theorem exists_run_pair {a b : IteratedFrame Value} (placed : [a.frame, b.frame].Sublist frames) :
    ∃ run : List (IteratedFrame Value), run.map (·.frame) = frames ∧ a ∈ run ∧ b ∈ run := by
  obtain ⟨run, same, within⟩ := IteratedFrame.exists_run [a, b] placed
  exact ⟨run, same, within.subset List.mem_cons_self, within.subset (by simp)⟩

theorem OrderFree.unambiguous (free : OrderFree frames) : Unambiguous frames where
  stateValues := by
    intro frame member entry listed other listed'
    obtain ⟨a, rfl, found⟩ := IteratedFrame.exists_observing listed
    obtain ⟨b, same, found'⟩ := IteratedFrame.exists_observing listed'
    have equal := congrArg LerobotFrame.observationState (free.equal a b same.symm member 0)
    simp only [IteratedFrame.fromAlignedFrame, found, found', Option.map_some] at equal
    exact Option.some.inj equal
  actionValues := by
    intro frame member entry listed other listed'
    obtain ⟨a, rfl, found⟩ := IteratedFrame.exists_acting listed
    obtain ⟨b, same, found'⟩ := IteratedFrame.exists_acting listed'
    have equal := congrArg LerobotFrame.action (free.equal a b same.symm member 0)
    simp only [IteratedFrame.fromAlignedFrame, found, found', Option.map_some] at equal
    exact Option.some.inj equal
  stateNames := by
    refine List.pairwise_iff_forall_sublist.mpr fun placed entry listed other listed' => ?_
    obtain ⟨a, rfl, found⟩ := IteratedFrame.exists_observing listed
    obtain ⟨b, rfl, found'⟩ := IteratedFrame.exists_observing listed'
    obtain ⟨run, same, first, second⟩ := exists_run_pair placed
    exact free.oneState run same a first b second entry found other found'
  actionNames := by
    refine List.pairwise_iff_forall_sublist.mpr fun placed entry listed other listed' => ?_
    obtain ⟨a, rfl, found⟩ := IteratedFrame.exists_acting listed
    obtain ⟨b, rfl, found'⟩ := IteratedFrame.exists_acting listed'
    obtain ⟨run, same, first, second⟩ := exists_run_pair placed
    exact free.oneAction run same a first b second entry found other found'

/-- What is chosen in a sequence is of one feature, if it is in any two of its frames. -/
theorem chosen_one {chosen : IteratedFrame Value → Option (String × List Value)}
    {candidates : AlignedFrame Value → List (String × List Value)}
    (candidate : ∀ it : IteratedFrame Value, ∀ entry ∈ chosen it, entry ∈ candidates it.frame)
    (names : frames.Pairwise fun frame later =>
      ∀ entry ∈ candidates frame, ∀ other ∈ candidates later, entry.1 = other.1)
    (run : List (IteratedFrame Value)) (same : run.map (·.frame) = frames) :
    ∀ a ∈ run, ∀ b ∈ run, ∀ entry ∈ chosen a, ∀ other ∈ chosen b, entry.1 = other.1 := by
  rw [← same, List.pairwise_map] at names
  have agree : run.Pairwise fun a b =>
      ∀ entry ∈ chosen a, ∀ other ∈ chosen b, entry.1 = other.1 :=
    names.imp fun named entry found other found' =>
      named entry (candidate _ entry found) other (candidate _ other found')
  have symm : Std.Symm fun a b : IteratedFrame Value =>
      ∀ entry ∈ chosen a, ∀ other ∈ chosen b, entry.1 = other.1 :=
    ⟨fun _ _ agreed entry found other found' => (agreed other found' entry found).symm⟩
  have itself : ∀ it ∈ run, ∀ entry ∈ chosen it, ∀ other ∈ chosen it, entry.1 = other.1 := by
    intro it _ entry found other found'
    rw [Option.mem_unique found found']
  exact fun a first b second => agree.forall_of_forall itself first second

theorem Unambiguous.orderFree (clear : Unambiguous frames) : OrderFree frames := by
  have oneState := chosen_one (fun it entry => it.mem_observations) clear.stateNames
  have oneAction := chosen_one (fun it entry => it.mem_actions) clear.actionNames
  refine ⟨?_, ?_, ?_, oneState, oneAction⟩
  · intro a b same member episodeIndex
    have states := (find?_order_free_iff a.frame.states.entries
      (fun entry => isObservation entry.1) Prod.snd).mpr fun entry listed other listed' fit fit' =>
        clear.stateValues _ member entry (List.mem_filter.mpr ⟨listed, fit⟩) other
          (List.mem_filter.mpr ⟨listed', fit'⟩)
    have actions := (find?_order_free_iff a.frame.actions.entries
      (fun _ => true) Prod.snd).mpr fun entry listed other listed' _ _ =>
        clear.actionValues _ member entry listed other listed'
    have state := states a.states b.states a.statesPerm (same ▸ b.statesPerm)
    have action := actions a.actions b.actions a.actionsPerm (same ▸ b.actionsPerm)
    rw [← head?_eq_find?, ← head?_eq_find?] at action
    have images := (a.imageFrames_eq episodeIndex).trans
      ((congrArg (fun frame => (LerobotFrame.fromAlignedFrame frame episodeIndex).imageFrames)
        same).trans (b.imageFrames_eq episodeIndex).symm)
    simp only [IteratedFrame.fromAlignedFrame, IteratedFrame.observation, IteratedFrame.action,
      LerobotFrame.mk.injEq] at images ⊢
    exact ⟨trivial, by rw [same], by rw [same], by rw [same], state, action, trivial, images⟩
  · intro run same a first b second entry found contains
    have listed := IteratedFrame.mem_observations found
    have fit : isObservation entry.1 = true := (List.mem_filter.mp listed).2
    obtain ⟨value, held⟩ := Option.ne_none_iff_exists'.mp contains
    have present : (b.observation).isSome := by
      rw [IteratedFrame.observation, find?_isSome_of_perm _ b.statesPerm, List.find?_isSome]
      exact ⟨_, (b.frame.states.mem_entries).mpr held, fit⟩
    obtain ⟨other, chosen⟩ := Option.isSome_iff_exists.mp present
    exact ⟨other, chosen, (oneState run same a first b second entry found other chosen).symm⟩
  · intro run same a first b second entry found contains
    obtain ⟨value, held⟩ := Option.ne_none_iff_exists'.mp contains
    have present : (b.action).isSome := by
      rw [IteratedFrame.action, head?_eq_find?, find?_isSome_of_perm _ b.actionsPerm,
        List.find?_isSome]
      exact ⟨_, (b.frame.actions.mem_entries).mpr held, rfl⟩
    obtain ⟨other, chosen⟩ := Option.isSome_iff_exists.mp present
    exact ⟨other, chosen, (oneAction run same a first b second entry found other chosen).symm⟩

/-- For a sequence of frames the orders of iteration do not show exactly if there is
nothing to choose between. -/
theorem hash_order_harmless_iff (frames : List (AlignedFrame Value)) :
    OrderFree frames ↔ Unambiguous frames :=
  ⟨OrderFree.unambiguous, Unambiguous.orderFree⟩

/-- A frame of a robot with two state topics. -/
def twoStates : AlignedFrame Nat :=
  { AlignedFrame.new 0 0 with
    states := (Kv.empty.put "state.left" [1]).put "state.right" [2] }

theorem two_states_depend_on_order : ¬ OrderFree [twoStates] := by
  intro free
  have values := free.unambiguous.stateValues twoStates List.mem_cons_self
    ("state.left", [1]) (by decide) ("state.right", [2]) (by decide)
  exact absurd values (by decide)

end Roboflow.Lerobot
