import Roboflow.Dataset.BagSources

/-! The source of `sources/s3_prefix.rs`, which reads the files under a prefix one after the other. A read
collects over several files, and when the next file fails to open the read returns that error and what it
has collected is lost. -/
namespace Roboflow.Dataset
open Library

variable {Msg : Type}

/-! ### Files and their sources -/

/-- A file that fails to open, or one that delivers messages and then ends or fails. How many messages
each of its reads returns is its own affair: it is decided from what is left and what is asked for. -/
inductive SourceFile (Msg : Type) where
  | unopenable (error : String)
  | readable (messages : List Msg) (failure : Option String) (pace : List Msg → Nat → Nat)

/-- A file that has been opened, with the messages left in it. -/
structure FileSource (Msg : Type) where
  left : List Msg
  failure : Option String
  pace : List Msg → Nat → Nat

/-- `read_batch` of an opened file: at least one message and at most as many as are asked for. -/
def FileSource.readBatch (source : FileSource Msg) (size : Nat) :
    Except String (Option (List Msg)) × FileSource Msg :=
  if source.left.isEmpty then
    match source.failure with
    | some e => (.error e, source)
    | none => (.ok none, source)
  else
    let count := max 1 (min (source.pace source.left size) size)
    (.ok (some (source.left.take count)), { source with left := source.left.drop count })

/-- The source over its files, with the indices of the files it has asked to open, latest first. -/
structure S3PrefixSource (Msg : Type) where
  files : List (SourceFile Msg)
  currentFileIndex : Nat
  currentSource : Option (FileSource Msg)
  opened : List Nat

namespace S3PrefixSource

/-- `open_next_file`. The index moves on before the file is opened. -/
def openNextFile (s : S3PrefixSource Msg) : Except String Bool × S3PrefixSource Msg :=
  let s := { s with currentSource := none }
  match s.files[s.currentFileIndex]? with
  | none => (.ok false, s)
  | some file =>
    let s := { s with
      currentFileIndex := s.currentFileIndex + 1, opened := s.currentFileIndex :: s.opened }
    match file with
    | .unopenable e => (.error e, s)
    | .readable messages failure pace =>
      (.ok true, { s with currentSource := some ⟨messages, failure, pace⟩ })

/-- The source that the loop reads from: the current one, or that of the next file, if there is one. -/
def source (s : S3PrefixSource Msg) : Except String (Option (FileSource Msg)) × S3PrefixSource Msg :=
  match s.currentSource with
  | some source => (.ok (some source), s)
  | none =>
    match s.openNextFile with
    | (.error e, s) => (.error e, s)
    | (.ok false, s) => (.ok none, s)
    | (.ok true, s) => (.ok s.currentSource, s)

/-- The messages left in the current source, and one for the source itself. -/
def currentLeft (s : S3PrefixSource Msg) : Nat :=
  match s.currentSource with
  | some source => source.left.length + 1
  | none => 0

/-- What `source` leaves. -/
theorem source_some {s s' : S3PrefixSource Msg} {source : FileSource Msg}
    (found : s.source = (.ok (some source), s')) :
    s'.files = s.files ∧ s'.currentSource = some source ∧
      (s' = s ∨ s.currentSource = none ∧ s.currentFileIndex < s.files.length ∧
        s'.currentFileIndex = s.currentFileIndex + 1) := by
  unfold S3PrefixSource.source at found
  cases current : s.currentSource with
  | some open_ =>
    rw [current] at found
    cases found
    exact ⟨rfl, current, .inl rfl⟩
  | none =>
    rw [current] at found
    unfold openNextFile at found
    dsimp only at found
    cases file : s.files[s.currentFileIndex]? with
    | none =>
      rw [file] at found
      cases found
    | some file_ =>
      rw [file] at found
      have within := (List.getElem?_eq_some_iff.mp file).1
      cases file_ with
      | unopenable e => cases found
      | readable messages failure pace =>
        cases found
        exact ⟨rfl, rfl, .inr ⟨rfl, within, rfl⟩⟩

theorem readBatch_some {source source' : FileSource Msg} {size : Nat} {messages : List Msg}
    (given : source.readBatch size = (.ok (some messages), source')) :
    source'.left.length < source.left.length := by
  unfold FileSource.readBatch at given
  split at given
  · split at given <;> cases given
  · rename_i some_
    cases given
    have : source.left ≠ [] := by simpa using some_
    have := List.length_pos_of_ne_nil this
    dsimp only
    rw [List.length_drop]
    omega

/-- The loop of `read_batch`. -/
def readLoop (size : Nat) (s : S3PrefixSource Msg) (allMessages : List Msg) :
    Except String (List Msg) × S3PrefixSource Msg :=
  if allMessages.length < size then
    match found : s.source with
    | (.error e, s) => (.error e, s)
    | (.ok none, s) => (.ok allMessages, s)
    | (.ok (some source), s) =>
      match given : source.readBatch (size - allMessages.length) with
      | (.ok (some messages), source) =>
        readLoop size { s with currentSource := some source } (allMessages ++ messages)
      | (.ok none, _) => readLoop size { s with currentSource := none } allMessages
      | (.error _, _) => readLoop size { s with currentSource := none } allMessages
  else (.ok allMessages, s)
termination_by (s.files.length - s.currentFileIndex, s.currentLeft)
decreasing_by
  all_goals
    obtain ⟨files, current, rfl | ⟨-, within, moved⟩⟩ := source_some found
    · apply Prod.Lex.right
      first
        | have := readBatch_some given
          simp only [currentLeft, current]
          omega
        | simp only [currentLeft, current]
          omega
    · apply Prod.Lex.left
      rw [files, moved]
      omega

/-- `read_batch`. -/
def readBatch (s : S3PrefixSource Msg) (size : BatchSize) :
    Except String (Option (List Msg)) × S3PrefixSource Msg :=
  if s.files.isEmpty then (.ok none, s)
  else
    match readLoop size.size s [] with
    | (.error e, s) => (.error e, s)
    | (.ok allMessages, s) =>
      if allMessages.isEmpty && s.files.length ≤ s.currentFileIndex then (.ok none, s)
      else (.ok (some allMessages), s)

/-- The source after `initialize` on listed files, whether the first of them could be opened or not. -/
def initialized (files : List (SourceFile Msg)) : S3PrefixSource Msg :=
  let s : S3PrefixSource Msg := ⟨files, 0, none, []⟩
  if files.isEmpty then s else s.openNextFile.2

end S3PrefixSource

/-! ### Reads one after the other -/

/-- A read with what it returned. -/
abbrev PrefixRead (Msg : Type) := BatchSize × Except String (Option (List Msg))

/-- Reads of these sizes, whatever each of them returns, and the source after them. -/
def S3PrefixSource.readAll (s : S3PrefixSource Msg) :
    List BatchSize → List (PrefixRead Msg) × S3PrefixSource Msg
  | [] => ([], s)
  | size :: rest =>
    let (answer, s) := s.readBatch size
    let (more, s) := s.readAll rest
    ((size, answer) :: more, s)

/-- The messages of a read. -/
def PrefixRead.batch (read : PrefixRead Msg) : List Msg :=
  match read.2 with
  | .ok (some messages) => messages
  | _ => []

/-- The messages of the files that open, in the order of the files. -/
def fileMessages (files : List (SourceFile Msg)) : List Msg :=
  files.flatMap fun
    | .unopenable _ => []
    | .readable messages _ _ => messages

/-- Reads have returned nothing but the messages of the files in order, in batches not longer than asked
for; once one has returned `None` that was all of them and every later read returns `None`; and no file
was asked to open twice. -/
structure DeliversFiles (files : List (SourceFile Msg)) (reads : List (PrefixRead Msg))
    (s : S3PrefixSource Msg) : Prop where
  sizes : ∀ read ∈ reads, read.batch.length ≤ read.1.size
  inOrder : reads.flatMap PrefixRead.batch <+: fileMessages files
  ended : ∀ before read after, reads = before ++ read :: after → read.2 = .ok none →
    before.flatMap PrefixRead.batch = fileMessages files ∧ ∀ later ∈ after, later.2 = .ok none
  once : s.opened.Nodup

/-! ### The files as one trail -/

/-- What a file puts on the trail: its messages, or its failure to open. -/
def SourceFile.trail : SourceFile Msg → List (Except String Msg)
  | .unopenable e => [.error e]
  | .readable messages _ _ => messages.map .ok

/-- The messages and the failures to open that a source has before it. -/
def S3PrefixSource.trail (s : S3PrefixSource Msg) : List (Except String Msg) :=
  (match s.currentSource with
    | some source => source.left.map .ok
    | none => []) ++ (s.files.drop s.currentFileIndex).flatMap SourceFile.trail

/-- Messages before an outcome. -/
def gathered (messages : List Msg) (outcome : Except String (List Msg) × List (Except String Msg)) :
    Except String (List Msg) × List (Except String Msg) :=
  (outcome.1.map (messages ++ ·), outcome.2)

/-- A read of a trail: so many messages as are asked for or are left, unless a failure comes before. -/
def readTrail : Nat → List (Except String Msg) → Except String (List Msg) × List (Except String Msg)
  | 0, trail => (.ok [], trail)
  | _ + 1, [] => (.ok [], [])
  | _ + 1, .error e :: rest => (.error e, rest)
  | n + 1, .ok msg :: rest => gathered [msg] (readTrail n rest)

theorem gathered_nil (outcome : Except String (List Msg) × List (Except String Msg)) :
    gathered [] outcome = outcome := by
  obtain ⟨_ | messages, rest⟩ := outcome <;> rfl

theorem gathered_gathered (one two : List Msg)
    (outcome : Except String (List Msg) × List (Except String Msg)) :
    gathered one (gathered two outcome) = gathered (one ++ two) outcome := by
  obtain ⟨_ | messages, rest⟩ := outcome
  · rfl
  · simp [gathered, Except.map]

theorem readTrail_nil (n : Nat) : readTrail n ([] : List (Except String Msg)) = (.ok [], []) := by
  cases n <;> rfl

/-- Messages that are asked for are read one after the other. -/
theorem readTrail_append {n : Nat} (messages : List Msg) (enough : messages.length ≤ n)
    (rest : List (Except String Msg)) :
    readTrail n (messages.map .ok ++ rest) = gathered messages (readTrail (n - messages.length) rest) := by
  induction messages generalizing n with
  | nil => exact (gathered_nil _).symm
  | cons msg messages ih =>
    obtain ⟨n, rfl⟩ : ∃ m, n = m + 1 := ⟨n - 1, by simp only [List.length_cons] at enough; omega⟩
    rw [List.map_cons, List.cons_append, readTrail, ih (by simpa using enough), gathered_gathered,
      List.length_cons, Nat.add_sub_add_right]
    rfl

/-! ### A read of the source is one of the trail -/

namespace S3PrefixSource

variable {s s' : S3PrefixSource Msg}

/-- What the loop finds to read from stands at the head of the trail. -/
theorem source_trail (s : S3PrefixSource Msg) :
    match s.source with
    | (.error e, s') => s.trail = .error e :: s'.trail ∧ s'.files = s.files
    | (.ok none, s') => s.trail = [] ∧ s'.trail = [] ∧ s'.files = s.files ∧
        s'.files.length ≤ s'.currentFileIndex
    | (.ok (some source), s') => s'.trail = s.trail ∧ s'.files = s.files ∧
        s'.currentSource = some source := by
  unfold S3PrefixSource.source
  cases current : s.currentSource with
  | some source => exact ⟨rfl, rfl, current⟩
  | none =>
    unfold openNextFile
    dsimp only
    cases file : s.files[s.currentFileIndex]? with
    | none =>
      have over_ := List.getElem?_eq_none_iff.mp file
      have nothing : s.files.drop s.currentFileIndex = [] := List.drop_eq_nil_of_le over_
      refine ⟨?_, ?_, rfl, over_⟩
      · simp [trail, current, nothing]
      · simp [trail, nothing]
    | some file_ =>
      have next : s.files.drop s.currentFileIndex = file_ :: s.files.drop (s.currentFileIndex + 1) := by
        obtain ⟨within, same⟩ := List.getElem?_eq_some_iff.mp file
        rw [List.drop_eq_getElem_cons within, same]
      cases file_ with
      | unopenable e =>
        refine ⟨?_, rfl⟩
        simp [trail, current, next, SourceFile.trail]
      | readable messages failure pace =>
        refine ⟨?_, rfl, rfl⟩
        simp [trail, current, next, SourceFile.trail]

/-- A loop that is not done goes on with what it finds to read from. -/
theorem readLoop_short {size : Nat} {allMessages : List Msg} (short : allMessages.length < size) :
    readLoop size s allMessages =
      match s.source with
      | (.error e, s) => (.error e, s)
      | (.ok none, s) => (.ok allMessages, s)
      | (.ok (some source), s) =>
        match source.readBatch (size - allMessages.length) with
        | (.ok (some messages), source) =>
          readLoop size { s with currentSource := some source } (allMessages ++ messages)
        | (.ok none, _) => readLoop size { s with currentSource := none } allMessages
        | (.error _, _) => readLoop size { s with currentSource := none } allMessages := by
  conv_lhs => rw [readLoop, if_pos short]
  split
  · rename_i found
    rw [found]
  · rename_i found
    rw [found]
  · rename_i found
    rw [found]
    dsimp only
    split
    · rename_i given
      rw [given]
    · rename_i given
      rw [given]
    · rename_i given
      rw [given]

/-- A read of an opened file takes what stands first on its part of the trail. -/
theorem readBatch_trail (source : FileSource Msg) {size : Nat} (positive : 0 < size) :
    match source.readBatch size with
    | (.ok (some messages), source') =>
      source.left = messages ++ source'.left ∧ messages.length ≤ size ∧ messages ≠ []
    | (.ok none, _) => source.left = []
    | (.error _, _) => source.left = [] := by
  unfold FileSource.readBatch
  by_cases empty : source.left = []
  · rw [if_pos (by simp [empty])]
    cases source.failure with
    | some e => exact empty
    | none => exact empty
  · rw [if_neg (by simp [empty])]
    have left := List.length_pos_of_ne_nil empty
    refine ⟨(List.take_append_drop ..).symm, ?_, fun none_ => ?_⟩
    · rw [List.length_take]
      omega
    · rcases List.take_eq_nil_iff.mp none_ with zero | nothing
      · omega
      · exact empty nothing

/-- What a loop has come to: the outcome of reading the trail, after what had been collected before; and
one that collects less than is asked for has no file left. -/
structure LoopReads (size : Nat) (s : S3PrefixSource Msg) (allMessages : List Msg)
    (outcome : Except String (List Msg) × S3PrefixSource Msg) : Prop where
  reads : (outcome.1, outcome.2.trail) =
    gathered allMessages (readTrail (size - allMessages.length) s.trail)
  files : outcome.2.files = s.files
  exhausted : ∀ messages, outcome.1 = .ok messages → messages.length < size →
    outcome.2.files.length ≤ outcome.2.currentFileIndex

/-- A source with nothing left is set aside. -/
theorem LoopReads.skip {size : Nat} {allMessages : List Msg} {source : FileSource Msg}
    (found : s.source = (.ok (some source), s')) (nothing : source.left = [])
    (loop : readLoop size s allMessages = readLoop size { s' with currentSource := none } allMessages)
    (reads : LoopReads size { s' with currentSource := none } allMessages
      (readLoop size { s' with currentSource := none } allMessages)) :
    LoopReads size s allMessages (readLoop size s allMessages) := by
  have at_ := source_trail s
  rw [found] at at_
  obtain ⟨same, files, current⟩ := at_
  have ahead : s.trail = trail { s' with currentSource := none } := by
    rw [← same]
    simp only [trail, current, nothing, List.map_nil]
  rw [loop]
  refine ⟨?_, reads.files.trans files, reads.exhausted⟩
  rw [reads.reads, ahead]

theorem readLoop_reads (size : Nat) (s : S3PrefixSource Msg) (allMessages : List Msg) :
    LoopReads size s allMessages (readLoop size s allMessages) := by
  induction s, allMessages using readLoop.induct size with
  | case1 s allMessages short e s' found =>
    have at_ := source_trail s
    rw [found] at at_
    obtain ⟨ahead, files⟩ := at_
    rw [readLoop_short short, found]
    refine ⟨?_, files, fun messages same => by cases same⟩
    obtain ⟨n, rest⟩ : ∃ n, size - allMessages.length = n + 1 :=
      ⟨size - allMessages.length - 1, by omega⟩
    rw [rest, ahead]
    rfl
  | case2 s allMessages short s' found =>
    have at_ := source_trail s
    rw [found] at at_
    obtain ⟨ahead, behind, files, over_⟩ := at_
    rw [readLoop_short short, found]
    refine ⟨?_, files, fun _ _ _ => over_⟩
    dsimp only
    rw [ahead, behind, readTrail_nil]
    simp [gathered, Except.map]
  | case3 s allMessages short source s' found messages source' given ih =>
    have at_ := source_trail s
    rw [found] at at_
    obtain ⟨same, files, current⟩ := at_
    have taken := readBatch_trail source (Nat.sub_pos_of_lt short)
    rw [given] at taken
    obtain ⟨split, fits, -⟩ := taken
    have ahead : s.trail = messages.map .ok ++ trail { s' with currentSource := some source' } := by
      rw [← same]
      simp only [trail, current, split, List.map_append, List.append_assoc]
    have loop : readLoop size s allMessages =
        readLoop size { s' with currentSource := some source' } (allMessages ++ messages) := by
      rw [readLoop_short short, found]
      dsimp only
      rw [given]
    rw [loop]
    refine ⟨?_, ih.files.trans files, ih.exhausted⟩
    rw [ih.reads, ahead, readTrail_append messages fits, gathered_gathered, List.length_append,
      Nat.sub_sub]
  | case4 s allMessages short source s' found source' given ih =>
    have nothing := readBatch_trail source (Nat.sub_pos_of_lt short)
    rw [given] at nothing
    refine LoopReads.skip found nothing ?_ ih
    rw [readLoop_short short, found]
    dsimp only
    rw [given]
  | case5 s allMessages short source s' found e source' given ih =>
    have nothing := readBatch_trail source (Nat.sub_pos_of_lt short)
    rw [given] at nothing
    refine LoopReads.skip found nothing ?_ ih
    rw [readLoop_short short, found]
    dsimp only
    rw [given]
  | case6 s allMessages long =>
    rw [readLoop, if_neg long]
    have none_ : size - allMessages.length = 0 := by omega
    refine ⟨?_, rfl, fun messages same less => ?_⟩
    · rw [none_, readTrail]
      simp [gathered, Except.map]
    · cases same
      exact absurd less long

/-- Every file before the index has been asked to open once, in order. -/
structure Sound (s : S3PrefixSource Msg) : Prop where
  opened : s.opened = (List.range s.currentFileIndex).reverse
  within : s.currentFileIndex ≤ s.files.length
  current : s.files = [] → s.currentSource = none

theorem Sound.source (sound : s.Sound) : s.source.2.Sound := by
  unfold S3PrefixSource.source
  cases current : s.currentSource with
  | some source => exact sound
  | none =>
    unfold openNextFile
    dsimp only
    cases file : s.files[s.currentFileIndex]? with
    | none => exact ⟨sound.opened, sound.within, fun _ => rfl⟩
    | some file_ =>
      have within := (List.getElem?_eq_some_iff.mp file).1
      have opened : s.currentFileIndex :: s.opened = (List.range (s.currentFileIndex + 1)).reverse := by
        rw [List.range_succ, List.reverse_append, sound.opened]
        rfl
      cases file_ with
      | unopenable e => exact ⟨opened, within, fun _ => rfl⟩
      | readable messages failure pace =>
        refine ⟨opened, within, fun empty => ?_⟩
        dsimp only at empty
        rw [empty] at within
        exact absurd within (Nat.not_lt_zero _)

theorem Sound.readLoop (size : Nat) (allMessages : List Msg) (sound : s.Sound) :
    (readLoop size s allMessages).2.Sound := by
  have kept : ∀ {t : S3PrefixSource Msg} {next : Option (FileSource Msg)}, t.Sound →
      (t.files = [] → next = none) → Sound { t with currentSource := next } := by
    intro t next sound_ none_
    exact ⟨sound_.opened, sound_.within, none_⟩
  induction s, allMessages using readLoop.induct size with
  | case1 s allMessages short e s' found =>
    have next := sound.source
    rw [found] at next
    rw [readLoop_short short, found]
    exact next
  | case2 s allMessages short s' found =>
    have next := sound.source
    rw [found] at next
    rw [readLoop_short short, found]
    exact next
  | case3 s allMessages short source s' found messages source' given ih =>
    have next := sound.source
    rw [found] at next
    have open_ : s'.currentSource = some source := (source_some found).2.1
    rw [readLoop_short short, found]
    dsimp only
    rw [given]
    refine ih (kept next fun empty => ?_)
    have none_ := next.current empty
    rw [open_] at none_
    cases none_
  | case4 s allMessages short source s' found source' given ih =>
    have next := sound.source
    rw [found] at next
    rw [readLoop_short short, found]
    dsimp only
    rw [given]
    exact ih (kept next fun _ => rfl)
  | case5 s allMessages short source s' found e source' given ih =>
    have next := sound.source
    rw [found] at next
    rw [readLoop_short short, found]
    dsimp only
    rw [given]
    exact ih (kept next fun _ => rfl)
  | case6 s allMessages long =>
    rw [S3PrefixSource.readLoop, if_neg long]
    exact sound

end S3PrefixSource

/-! ### What a read returns -/

/-- The messages on a trail. -/
def onTrail (trail : List (Except String Msg)) : List Msg := trail.filterMap Except.toOption

theorem onTrail_append (messages : List Msg) (rest : List (Except String Msg)) :
    onTrail (messages.map .ok ++ rest) = messages ++ onTrail rest := by
  simp [onTrail, List.filterMap_map, Function.comp_def, Except.toOption]

/-- A read of a trail takes messages from its head, and a failure behind less than was asked for takes
them with it. -/
theorem readTrail_cases (n : Nat) (trail : List (Except String Msg)) :
    (∃ (messages : List Msg) (rest : _), readTrail n trail = (.ok messages, rest) ∧
        trail = messages.map .ok ++ rest ∧
        (messages.length = n ∨ messages.length < n ∧ rest = [])) ∨
      ∃ (lost : List Msg) (e : String) (rest : _), readTrail n trail = (.error e, rest) ∧
        trail = lost.map .ok ++ .error e :: rest ∧ lost.length < n := by
  induction n generalizing trail with
  | zero => exact .inl ⟨[], trail, rfl, rfl, .inl rfl⟩
  | succ n ih =>
    rcases trail with _ | ⟨e | msg, rest⟩
    · exact .inl ⟨[], [], rfl, rfl, .inr ⟨Nat.succ_pos _, rfl⟩⟩
    · exact .inr ⟨[], e, rest, rfl, rfl, Nat.succ_pos _⟩
    · rcases ih rest with ⟨messages, rest', read, split, enough⟩ | ⟨lost, e, rest', read, split, less⟩
      · refine .inl ⟨msg :: messages, rest', ?_, ?_, ?_⟩
        · rw [readTrail, read]
          rfl
        · rw [split]
          rfl
        · exact enough.imp (congrArg Nat.succ) (And.imp_left Nat.succ_lt_succ)
      · refine .inr ⟨msg :: lost, e, rest', ?_, ?_, ?_⟩
        · rw [readTrail, read]
          rfl
        · rw [split]
          rfl
        · rw [List.length_cons]
          omega

/-- The first failure of a trail is behind the same messages however it is read. -/
theorem first_failure {one two : List Msg} {e e' : String} {rest rest' : List (Except String Msg)}
    (same : one.map .ok ++ .error e :: rest = two.map .ok ++ .error e' :: rest') : one = two := by
  induction one generalizing two with
  | nil =>
    cases two with
    | nil => rfl
    | cons msg two => cases same
  | cons msg one ih =>
    cases two with
    | nil => cases same
    | cons msg' two =>
      simp only [List.map_cons, List.cons_append, List.cons.injEq, Except.ok.injEq] at same
      rw [same.1, ih same.2]

/-- Everything a read can return: a failure, with what was collected before it lost; messages; or `None`. -/
inductive ReadOutcome (s : S3PrefixSource Msg) (size : BatchSize) :
    Except String (Option (List Msg)) × S3PrefixSource Msg → Prop where
  | failed {e : String} {s' : S3PrefixSource Msg} (lost : List Msg)
      (trail : s.trail = lost.map .ok ++ .error e :: s'.trail)
      (less : lost.length < size.size) : ReadOutcome s size (.error e, s')
  | batch {messages : List Msg} {s' : S3PrefixSource Msg}
      (trail : s.trail = messages.map .ok ++ s'.trail) (fits : messages.length ≤ size.size)
      (some_ : messages ≠ []) (enough : messages.length = size.size ∨ s'.trail = []) :
      ReadOutcome s size (.ok (some messages), s')
  | none {s' : S3PrefixSource Msg} (trail : s.trail = []) (after : s'.trail = []) : ReadOutcome s size (.ok none, s')

theorem S3PrefixSource.Sound.readBatch {s : S3PrefixSource Msg} (sound : s.Sound) (size : BatchSize) :
    (s.readBatch size).2.Sound ∧ ReadOutcome s size (s.readBatch size) := by
  unfold S3PrefixSource.readBatch
  by_cases empty : s.files = []
  · have nothing : s.trail = [] := by
      simp [S3PrefixSource.trail, sound.current empty, empty]
    rw [if_pos (by simp [empty])]
    exact ⟨sound, .none nothing nothing⟩
  · rw [if_neg (by simp [empty])]
    have next := sound.readLoop size.size []
    obtain ⟨reads, files, exhausted⟩ := S3PrefixSource.readLoop_reads size.size s []
    rw [gathered_nil] at reads
    generalize S3PrefixSource.readLoop size.size s [] = outcome at next reads files exhausted
    obtain ⟨result, s'⟩ := outcome
    have positive := size.positive
    rcases readTrail_cases size.size s.trail with
      ⟨messages, rest, read, split, enough⟩ | ⟨lost, e, rest, read, split, less⟩
    · rw [List.length_nil, Nat.sub_zero, read] at reads
      obtain ⟨rfl, rfl⟩ := Prod.mk.inj reads
      dsimp only
      have over_ : messages = [] → s'.files.length ≤ s'.currentFileIndex := by
        rintro rfl
        exact exhausted [] rfl positive
      rcases messages with _ | ⟨msg, messages⟩
      · rw [if_pos (by simpa using over_ rfl)]
        have behind : s'.trail = [] := (enough.resolve_left (by simpa using positive.ne)).2
        rw [List.map_nil, List.nil_append] at split
        exact ⟨next, .none (split.trans behind) behind⟩
      · rw [if_neg (by simp)]
        refine ⟨next, .batch split ?_ (List.cons_ne_nil _ _) (enough.imp id And.right)⟩
        rcases enough with same | ⟨less, -⟩
        · exact same.le
        · exact less.le
    · rw [List.length_nil, Nat.sub_zero, read] at reads
      obtain ⟨rfl, rfl⟩ := Prod.mk.inj reads
      exact ⟨next, .failed lost split less⟩

/-! ### Aligned reads -/

/-- Where a file that fails to open is ahead, all messages before it are asked for or more, or there is
none before it. -/
def Aligned (s : S3PrefixSource Msg) (size : BatchSize) : Prop :=
  ∀ (before : List Msg) (e : String) (rest : _), s.trail = before.map .ok ++ .error e :: rest →
    before = [] ∨ size.size ≤ before.length

/-- Every read is aligned where it is made. -/
def AllAligned (s : S3PrefixSource Msg) : List BatchSize → Prop
  | [] => True
  | size :: rest => Aligned s size ∧ AllAligned (s.readBatch size).2 rest

theorem messages_before_failure {messages before : List Msg} {e : String}
    {rest rest' : List (Except String Msg)}
    (same : messages.map .ok ++ rest = before.map .ok ++ .error e :: rest') :
    messages.length ≤ before.length := by
  induction messages generalizing before with
  | nil => exact Nat.zero_le _
  | cons msg messages ih =>
    cases before with
    | nil => cases same
    | cons msg' before =>
      simp only [List.map_cons, List.cons_append, List.cons.injEq] at same
      exact Nat.succ_le_succ (ih same.2)

/-- A read loses something exactly when it is not aligned. -/
theorem read_loses {s : S3PrefixSource Msg} {size : BatchSize}
    {read : Except String (Option (List Msg)) × S3PrefixSource Msg} (outcome : ReadOutcome s size read) :
    ∃ lost, onTrail s.trail = PrefixRead.batch (size, read.1) ++ (lost ++ onTrail read.2.trail) ∧
      (Aligned s size ↔ lost = []) := by
  cases outcome with
  | failed lost trail less =>
    refine ⟨lost, ?_, ?_⟩
    · rw [trail, onTrail_append]
      rfl
    · constructor
      · intro aligned
        exact (aligned lost _ _ trail).resolve_right (Nat.not_le.mpr less)
      · rintro rfl before e rest split
        exact .inl (first_failure (split.symm.trans trail))
  | @batch messages _ trail fits some_ enough =>
    refine ⟨[], ?_, iff_of_true ?_ rfl⟩
    · rw [trail, onTrail_append]
      rfl
    · intro before e rest split
      refine .inr ?_
      have same := trail.symm.trans split
      rcases enough with exactly | none_
      · exact exactly ▸ messages_before_failure same
      · rw [none_, List.append_nil] at same
        have member : Except.error e ∈ messages.map (Except.ok : Msg → Except String Msg) := by
          rw [same]
          exact List.mem_append_right _ List.mem_cons_self
        obtain ⟨msg, -, other⟩ := List.mem_map.mp member
        cases other
  | none trail after =>
    refine ⟨[], ?_, iff_of_true ?_ rfl⟩
    · rw [trail, after]
      rfl
    · intro before e rest split
      rw [trail] at split
      cases before <;> cases split

section Runs

variable {s : S3PrefixSource Msg} {files : List (SourceFile Msg)} {sizes : List BatchSize}

theorem readAll_cons (s : S3PrefixSource Msg) (size : BatchSize) (rest : List BatchSize) :
    s.readAll (size :: rest) =
      ((size, (s.readBatch size).1) :: ((s.readBatch size).2.readAll rest).1,
        ((s.readBatch size).2.readAll rest).2) := rfl

theorem readAll_sound (sound : s.Sound) (sizes : List BatchSize) : (s.readAll sizes).2.Sound := by
  induction sizes generalizing s with
  | nil => exact sound
  | cons size rest ih => exact ih (sound.readBatch size).1

theorem readAll_sizes (sound : s.Sound) (sizes : List BatchSize) :
    ∀ read ∈ (s.readAll sizes).1, read.batch.length ≤ read.1.size := by
  induction sizes generalizing s with
  | nil => exact List.forall_mem_nil _
  | cons size rest ih =>
    rw [readAll_cons, List.forall_mem_cons]
    obtain ⟨next, outcome⟩ := sound.readBatch size
    refine ⟨?_, ih next⟩
    generalize s.readBatch size = read at outcome
    cases outcome with
    | failed => exact Nat.zero_le _
    | batch _ fits => exact fits
    | none => exact Nat.zero_le _

/-- Aligned reads return what leaves the trail, and other reads return less. -/
theorem readAll_returns (sound : s.Sound) (sizes : List BatchSize) :
    (AllAligned s sizes → onTrail s.trail =
      (s.readAll sizes).1.flatMap PrefixRead.batch ++ onTrail (s.readAll sizes).2.trail) ∧
    (¬AllAligned s sizes → ((s.readAll sizes).1.flatMap PrefixRead.batch).length +
      (onTrail (s.readAll sizes).2.trail).length < (onTrail s.trail).length) := by
  induction sizes generalizing s with
  | nil => exact ⟨fun _ => rfl, fun unaligned => absurd trivial unaligned⟩
  | cons size rest ih =>
    obtain ⟨next, outcome⟩ := sound.readBatch size
    obtain ⟨lost, flow, aligned⟩ := read_loses outcome
    obtain ⟨same, less⟩ := ih next
    rw [readAll_cons, List.flatMap_cons]
    dsimp only
    constructor
    · rintro ⟨first, later⟩
      rw [flow, aligned.mp first, same later, List.nil_append, List.append_assoc]
    · intro unaligned
      rw [flow]
      simp only [List.length_append]
      by_cases later : AllAligned (s.readBatch size).2 rest
      · have lost_ : lost ≠ [] := fun nothing => unaligned ⟨aligned.mpr nothing, later⟩
        have some_ := List.length_pos_of_ne_nil lost_
        have lengths := congrArg List.length (same later)
        rw [List.length_append] at lengths
        omega
      · have := less later
        omega

/-- What a read returns and leaves of a trail. -/
def trailRead (size : BatchSize) (trail : List (Except String Msg)) :
    Except String (Option (List Msg)) × List (Except String Msg) :=
  match readTrail size.size trail with
  | (.error e, rest) => (.error e, rest)
  | (.ok [], rest) => (.ok none, rest)
  | (.ok (msg :: messages), rest) => (.ok (some (msg :: messages)), rest)

def trailReads (trail : List (Except String Msg)) : List BatchSize → List (PrefixRead Msg)
  | [] => []
  | size :: rest => (size, (trailRead size trail).1) :: trailReads (trailRead size trail).2 rest

theorem readBatch_eq (sound : s.Sound) (size : BatchSize) :
    ((s.readBatch size).1, (s.readBatch size).2.trail) = trailRead size s.trail := by
  unfold S3PrefixSource.readBatch trailRead
  by_cases empty : s.files = []
  · have nothing : s.trail = [] := by
      simp [S3PrefixSource.trail, sound.current empty, empty]
    rw [if_pos (by simp [empty]), nothing, readTrail_nil]
  · rw [if_neg (by simp [empty])]
    obtain ⟨reads, files, exhausted⟩ := S3PrefixSource.readLoop_reads size.size s []
    rw [gathered_nil, List.length_nil, Nat.sub_zero] at reads
    rw [← reads]
    generalize S3PrefixSource.readLoop size.size s [] = outcome at exhausted
    obtain ⟨_ | ⟨_ | ⟨msg, messages⟩⟩, s'⟩ := outcome
    · rfl
    · have over_ := exhausted [] rfl size.positive
      dsimp only at over_ ⊢
      rw [if_pos (by simpa using over_)]
    · dsimp only
      rw [if_neg (by simp)]

/-- The source reads its trail. -/
theorem readAll_eq (sound : s.Sound) (sizes : List BatchSize) :
    (s.readAll sizes).1 = trailReads s.trail sizes := by
  induction sizes generalizing s with
  | nil => rfl
  | cons size rest ih =>
    rw [readAll_cons, trailReads, ← readBatch_eq sound size]
    dsimp only
    rw [ih (sound.readBatch size).1]

/-- Nothing comes after the end of the trail. -/
theorem readAll_exhausted (sound : s.Sound) (nothing : s.trail = []) (sizes : List BatchSize) :
    (∀ read ∈ (s.readAll sizes).1, read.2 = .ok none) ∧ (s.readAll sizes).2.trail = [] := by
  induction sizes generalizing s with
  | nil => exact ⟨List.forall_mem_nil _, nothing⟩
  | cons size rest ih =>
    rw [readAll_cons, List.forall_mem_cons]
    obtain ⟨next, outcome⟩ := sound.readBatch size
    generalize s.readBatch size = read at next outcome
    cases outcome with
    | failed lost trail =>
      rw [nothing] at trail
      cases lost <;> cases trail
    | batch trail _ some_ =>
      rw [nothing] at trail
      exact absurd (List.map_eq_nil_iff.mp (List.append_eq_nil_iff.mp trail.symm).1) some_
    | none trail after => exact ⟨⟨rfl, (ih next after).1⟩, (ih next after).2⟩

/-- At a read that returns `None` the trail has come to its end. -/
theorem readAll_none (sound : s.Sound) (sizes : List BatchSize) {before after : List (PrefixRead Msg)}
    {read : PrefixRead Msg} (split : (s.readAll sizes).1 = before ++ read :: after)
    (ended : read.2 = .ok none) :
    (s.readAll sizes).2.trail = [] ∧ (∀ later ∈ after, later.2 = .ok none) := by
  induction sizes generalizing s before with
  | nil => cases before <;> cases split
  | cons size rest ih =>
    obtain ⟨next, outcome⟩ := sound.readBatch size
    rw [readAll_cons] at split ⊢
    cases before with
    | nil =>
      obtain ⟨rfl, rfl⟩ := List.cons.inj split
      have over_ : (s.readBatch size).2.trail = [] := by
        generalize s.readBatch size = read at outcome ended
        cases outcome with
        | failed => cases ended
        | batch => cases ended
        | none _ after => exact after
      obtain ⟨nones, trail⟩ := readAll_exhausted next over_ rest
      exact ⟨trail, nones⟩
    | cons first before => exact ih next (List.cons.inj split).2

theorem initialized_sound (files : List (SourceFile Msg)) : (S3PrefixSource.initialized files).Sound := by
  unfold S3PrefixSource.initialized
  have fresh : S3PrefixSource.Sound (⟨files, 0, none, []⟩ : S3PrefixSource Msg) :=
    ⟨rfl, Nat.zero_le _, fun _ => rfl⟩
  dsimp only
  split
  · exact fresh
  · have opened := fresh.source
    unfold S3PrefixSource.source at opened
    dsimp only at opened
    split at opened
    · rename_i failed
      rw [failed]
      exact opened
    · rename_i none_
      rw [none_]
      exact opened
    · rename_i next
      rw [next]
      exact opened

theorem onTrail_files (files : List (SourceFile Msg)) :
    onTrail (files.flatMap SourceFile.trail) = fileMessages files := by
  induction files with
  | nil => rfl
  | cons file rest ih =>
    cases file with
    | unopenable e => exact ih
    | readable messages failure pace =>
      rw [List.flatMap_cons, SourceFile.trail, onTrail_append, ih]
      rfl

theorem initialized_trail (files : List (SourceFile Msg)) :
    onTrail (S3PrefixSource.initialized files).trail = fileMessages files := by
  rw [← onTrail_files]
  rcases files with _ | ⟨_ | ⟨messages, failure, pace⟩, rest⟩
  · rfl
  · rfl
  · rfl

/-- Every read but one that returns `None` shortens the trail. -/
theorem readAll_ends (sound : s.Sound) (long : s.trail.length < sizes.length) :
    ∃ read ∈ (s.readAll sizes).1, read.2 = .ok none := by
  induction sizes generalizing s with
  | nil => exact absurd long (Nat.not_lt_zero _)
  | cons size rest ih =>
    rw [readAll_cons]
    rw [List.length_cons] at long
    obtain ⟨next, outcome⟩ := sound.readBatch size
    generalize s.readBatch size = read at next outcome
    have later : read.2.trail.length < rest.length →
        ∃ r ∈ (size, read.1) :: (read.2.readAll rest).1, r.2 = .ok none := by
      intro shorter
      obtain ⟨r, member, none_⟩ := ih next shorter
      exact ⟨r, List.mem_cons_of_mem _ member, none_⟩
    cases outcome with
    | failed lost trail =>
      apply later
      rw [trail, List.length_append, List.length_cons] at long
      dsimp only
      omega
    | batch trail _ some_ =>
      apply later
      have := List.length_pos_of_ne_nil some_
      rw [trail, List.length_append, List.length_map] at long
      dsimp only
      omega
    | none => exact ⟨_, List.mem_cons_self, rfl⟩

/-- A source delivers the messages of its files if every read is aligned; if it has come to its end it
does so only then; and it comes to its end after as many reads as there are messages and failures. -/
theorem prefix_source_delivers_iff (files : List (SourceFile Msg)) (sizes : List BatchSize) :
    (AllAligned (S3PrefixSource.initialized files) sizes →
        DeliversFiles files ((S3PrefixSource.initialized files).readAll sizes).1
          ((S3PrefixSource.initialized files).readAll sizes).2) ∧
      ((∃ read ∈ ((S3PrefixSource.initialized files).readAll sizes).1, read.2 = .ok none) →
        (DeliversFiles files ((S3PrefixSource.initialized files).readAll sizes).1
            ((S3PrefixSource.initialized files).readAll sizes).2 ↔
          AllAligned (S3PrefixSource.initialized files) sizes)) ∧
      ((S3PrefixSource.initialized files).trail.length < sizes.length →
        ∃ read ∈ ((S3PrefixSource.initialized files).readAll sizes).1, read.2 = .ok none) := by
  have sound := initialized_sound files
  have whole := initialized_trail files
  obtain ⟨same, less⟩ := readAll_returns sound sizes
  rw [whole] at same less
  have aligned_delivers : AllAligned (S3PrefixSource.initialized files) sizes →
      DeliversFiles files ((S3PrefixSource.initialized files).readAll sizes).1
        ((S3PrefixSource.initialized files).readAll sizes).2 := by
    intro aligned
    refine ⟨readAll_sizes sound sizes, ⟨_, (same aligned).symm⟩, ?_, ?_⟩
    · intro before read after split none_
      obtain ⟨over_, nones⟩ := readAll_none sound sizes split none_
      refine ⟨?_, nones⟩
      have all := same aligned
      rw [over_, split, List.flatMap_append, List.flatMap_cons] at all
      have rest : PrefixRead.batch read ++ after.flatMap PrefixRead.batch = [] := by
        rw [PrefixRead.batch, none_, List.nil_append, List.flatMap_eq_nil_iff]
        intro later member
        rw [PrefixRead.batch, nones later member]
      rw [rest, List.append_nil] at all
      exact (all.trans (List.append_nil _)).symm
    · rw [(readAll_sound sound sizes).opened]
      exact List.nodup_reverse.mpr List.nodup_range
  refine ⟨aligned_delivers, ?_, readAll_ends sound⟩
  rintro ⟨read, member, none_⟩
  refine ⟨fun delivers => ?_, aligned_delivers⟩
  by_contra unaligned
  have short := less unaligned
  obtain ⟨before, after, split⟩ := List.append_of_mem member
  have all := congrArg List.length (delivers.ended before read after split none_).1
  rw [split, List.flatMap_append, List.length_append] at short
  omega

end Runs

/-! ### A failure behind a message -/

def oneMessage : SourceFile Nat := .readable [7] none fun left _ => left.length

/-- The second of three files fails to open. A read of two messages returns the failure and has lost the
message of the first file, and the reads after it return the message of the third and `None`. -/
theorem failure_loses_messages :
    ((S3PrefixSource.initialized [oneMessage, .unopenable "x", oneMessage]).readAll
        (List.replicate 3 ⟨2, Nat.two_pos⟩)).1.map Prod.snd = [.error "x", .ok (some [7]), .ok none] ∧
      ¬DeliversFiles [oneMessage, .unopenable "x", oneMessage]
        ((S3PrefixSource.initialized [oneMessage, .unopenable "x", oneMessage]).readAll
          (List.replicate 3 ⟨2, Nat.two_pos⟩)).1
        ((S3PrefixSource.initialized [oneMessage, .unopenable "x", oneMessage]).readAll
          (List.replicate 3 ⟨2, Nat.two_pos⟩)).2 := by
  rw [readAll_eq (initialized_sound _)]
  refine ⟨rfl, fun delivers => ?_⟩
  have all := (delivers.ended [_, _] (⟨2, Nat.two_pos⟩, .ok none) [] rfl rfl).1
  cases all

end Roboflow.Dataset
