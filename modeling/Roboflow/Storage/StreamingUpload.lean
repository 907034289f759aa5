import Roboflow.Library.Disk
import Roboflow.Library.KeyedBuffers
import Roboflow.Library.Machine

/-! Streamed uploads to a local directory, `streaming_upload.rs` with `put_multipart_stream` of `local.rs`.
An upload writes to a temporary file beside its target and takes the target's name when it finishes. Any
number of uploads share the directory with clients that open files, read and write what they have opened, and
delete files. The random part of a temporary name, the clock and the answers of the operating system come with
the actions. -/
namespace Roboflow.Storage.StreamingUpload
open Library

abbrev Chunk := List UInt8

/-! ### The buffered writer -/

/-- The capacity of a `BufWriter`. -/
def defaultBufSize : Nat := 8 * 1024

/-- What a call sent to the file and left in the buffer, and what the device still takes. -/
structure Buffered where
  sent : Chunk
  buffer : Chunk
  left : Option Nat

/-- What a device that takes so many bytes takes after a chunk, unless it fails on it. -/
def leftAfter (room : Nat) (data : Chunk) : Option Nat :=
  if data.length ≤ room then some (room - data.length) else none

/-- `BufWriter::flush_buf`: what was sent leaves the buffer even if the rest fails. -/
def flushBuf (buffer : Chunk) (room : Nat) : Buffered :=
  ⟨buffer.take room, buffer.drop room, leftAfter room buffer⟩

/-- `BufWriter::write_all`. -/
def writeAll (buffer data : Chunk) (room : Nat) : Buffered :=
  if buffer.length + data.length < defaultBufSize then ⟨[], buffer ++ data, some room⟩
  else
    let emptied := if defaultBufSize < buffer.length + data.length then flushBuf buffer room
      else ⟨[], buffer, some room⟩
    match emptied.left with
    | none => emptied
    | some room =>
      -- what is as large as the buffer goes past it
      if defaultBufSize ≤ data.length then
        ⟨emptied.sent ++ data.take room, emptied.buffer, leftAfter room data⟩
      else ⟨emptied.sent, emptied.buffer ++ data, some room⟩

/-- `write_all` and `flush`. -/
def writeAndFlush (buffer data : Chunk) (room : Nat) : Buffered :=
  let taken := writeAll buffer data room
  match taken.left with
  | none => taken
  | some room =>
    let emptied := flushBuf taken.buffer room
    ⟨taken.sent ++ emptied.sent, emptied.buffer, emptied.left⟩

/-- The file and the buffer together grew by a part of the data, and by all of it if nothing failed. -/
structure Takes (buffer data part : Chunk) (after : Buffered) : Prop where
  grown : after.sent ++ after.buffer = buffer ++ part
  start : part <+: data
  whole : after.left ≠ none → part = data

theorem flushBuf_keeps (buffer : Chunk) (room : Nat) :
    (flushBuf buffer room).sent ++ (flushBuf buffer room).buffer = buffer := List.take_append_drop ..

theorem flushBuf_empties (left : (flushBuf buffer room).left ≠ none) : (flushBuf buffer room).buffer = [] := by
  have fits : buffer.length ≤ room := by
    by_contra more
    exact left (if_neg more)
  exact List.drop_eq_nil_of_le fits

theorem take_of_leftAfter (left : leftAfter room data ≠ none) : data.take room = data := by
  have fits : data.length ≤ room := by
    by_contra more
    exact left (if_neg more)
  exact List.take_of_length_le fits

theorem writeAll_takes (buffer data : Chunk) (room : Nat) :
    ∃ part, Takes buffer data part (writeAll buffer data room) := by
  unfold writeAll
  split
  · exact ⟨data, rfl, List.prefix_rfl, fun _ => rfl⟩
  · -- the buffer before the data, emptied if the data does not fit behind it
    rename_i filled
    generalize same : (if defaultBufSize < buffer.length + data.length then flushBuf buffer room
      else ⟨[], buffer, some room⟩ : Buffered) = emptied
    have kept : emptied.sent ++ emptied.buffer = buffer := by
      rw [← same]
      split
      · exact flushBuf_keeps ..
      · rfl
    dsimp only
    cases left : emptied.left with
    | none => exact ⟨[], by simpa using kept, List.nil_prefix, fun some => absurd left some⟩
    | some room' =>
      dsimp only
      split
      · rename_i large
        have nothing : emptied.buffer = [] := by
          rw [← same] at left ⊢
          split at left
          · rename_i more
            rw [if_pos more]
            exact flushBuf_empties (by simp [left])
          · rename_i filling
            rw [if_neg filling]
            have empty : buffer.length = 0 := by omega
            exact List.eq_nil_of_length_eq_zero empty
        rw [nothing, List.append_nil] at kept
        exact ⟨data.take room', by rw [nothing, kept, List.append_nil], List.take_prefix .., take_of_leftAfter⟩
      · exact ⟨data, by rw [← List.append_assoc, kept], List.prefix_rfl, fun _ => rfl⟩

theorem writeAndFlush_takes (buffer data : Chunk) (room : Nat) :
    ∃ part, Takes buffer data part (writeAndFlush buffer data room) := by
  obtain ⟨part, grown, start, whole⟩ := writeAll_takes buffer data room
  unfold writeAndFlush
  dsimp only
  cases left : (writeAll buffer data room).left with
  | none => exact ⟨part, grown, start, whole⟩
  | some room' =>
    refine ⟨part, ?_, start, fun _ => whole (by simp [left])⟩
    dsimp only
    rw [List.append_assoc, flushBuf_keeps, grown]

/-! ### The uploads of a directory -/

structure UploadStats where
  bytesUploaded : Nat
  partsCount : Nat
  duration : Nat

/-- An upload and its buffered writer. Its file is numbered by its place among the uploads. -/
structure LocalMultipartUpload where
  buffer : Chunk
  targetPath : String
  tempPath : String
  bytesWritten : Nat
  startTime : Nat
  finished : Bool

/-- What `finish` has left to do when the file is written: the rename, with the statistics to report. -/
structure Renaming where
  tempPath : String
  targetPath : String
  stats : UploadStats

inductive UploadStage where
  | writing (upload : LocalMultipartUpload)
  | renaming (rest : Renaming)

namespace UploadStage

def tempPath : UploadStage → String
  | .writing upload => upload.tempPath
  | .renaming rest => rest.tempPath

def targetPath : UploadStage → String
  | .writing upload => upload.targetPath
  | .renaming rest => rest.targetPath

def finished : UploadStage → Bool
  | .writing upload => upload.finished
  | .renaming _ => false

end UploadStage

/-- One directory, with the uploads into it by the numbers of their files, and the files that its other
clients have opened. -/
structure UploadDirectory where
  disk : Disk String UInt8
  uploads : Kv Nat UploadStage
  opened : List Nat

inductive StorageError where
  | io (error : String)
  | other (message : String)

/-- A device: what it takes before it fails, its error, and what it takes afterwards. -/
structure Device where
  room : Nat
  error : String
  later : Nat

/-- The calls of a store to which uploads are published whole. Its objects are numbered, and who has opened
an object keeps it when another one takes its name. -/
inductive ObjectCall where
  | publish (name : String) (file : Nat) (bytes : Chunk)
  | reader (name : String)
  | writer (name : String) (file : Nat)
  | readAt (file offset length : Nat)
  | writeAt (file offset : Nat) (bytes : Chunk)
  | delete (name : String)

inductive ObjectAnswer where
  | done
  | opened (file : Option Nat)
  | content (bytes : Chunk)
deriving DecidableEq

inductive UploadAnswer where
  | opened (result : Except StorageError Nat)
  | written (result : Except StorageError Unit)
  | closed (result : Except StorageError Unit)
  | finished (result : Except StorageError UploadStats)
  | aborted (result : Except StorageError Unit)
  | client (answer : ObjectAnswer)
  | done

/-- The answer, with the call of the object store that it stands for, if any, and that call's answer. -/
structure UploadOut where
  answer : UploadAnswer
  seen : Option (ObjectCall × ObjectAnswer)

/-- The answer of a client's call is that of the object store. -/
def clientOut (call : ObjectCall) (answer : ObjectAnswer) : UploadOut := ⟨.client answer, some (call, answer)⟩

def tempText : String := ".tmp_upload_"

namespace UploadDirectory

/-- Bytes at the end of a file. -/
def append (s : UploadDirectory) (file : Nat) (bytes : Chunk) : UploadDirectory :=
  { s with disk := s.disk.set file (s.disk.content file ++ bytes) }

/-- `put_multipart_stream`: the name is one that no file has. -/
def putMultipartStream (s : UploadDirectory) (target : String) (random : Except String String) (now : Nat) :
    Option (UploadDirectory × UploadOut) :=
  match random with
  | .error error => some (s, ⟨.opened (.error (.io error)), none⟩)
  | .ok random =>
    let temp := tempText ++ random
    if s.disk.names.get temp = none then
      let (disk, file) := s.disk.create temp
      some ({ s with
          disk := disk, uploads := s.uploads.put file (.writing ⟨[], target, temp, 0, now, false⟩) },
        ⟨.opened (.ok file), none⟩)
    else none

def write (s : UploadDirectory) (file : Nat) (data : Chunk) (device : Device) :
    Option (UploadDirectory × UploadOut) :=
  match s.uploads.get file with
  | none | some (.renaming _) => none
  | some (.writing upload) =>
    if upload.finished then
      some (s, ⟨.written (.error (.other "Cannot write to finished upload")), none⟩)
    else
      let after := writeAndFlush upload.buffer data device.room
      let s := s.append file after.sent
      match after.left with
      | none => some (
          { s with uploads := s.uploads.put file (.writing { upload with buffer := after.buffer }) },
          ⟨.written (.error (.io device.error)), none⟩)
      | some _ => some (
          { s with uploads := s.uploads.put file (.writing { upload with
              buffer := after.buffer, bytesWritten := upload.bytesWritten + data.length }) },
          ⟨.written (.ok ()), none⟩)

/-- The error of a call to the operating system, if it has one. -/
def ioError (result : Option String) : Except StorageError Unit :=
  match result with
  | none => .ok ()
  | some error => .error (.io error)

/-- `finish` up to the rename. What fails here leaves the temporary file, and dropping the writer sends
once more what is still buffered. -/
def finish (s : UploadDirectory) (file : Nat) (device : Device) (synced parent : Option String) (now : Nat) :
    Option (UploadDirectory × UploadOut) :=
  match s.uploads.get file with
  | none | some (.renaming _) => none
  | some (.writing upload) =>
    let closed := { s with uploads := s.uploads.delete file }
    if upload.finished then
      some (closed, ⟨.closed (.error (.other "Upload already finished")), none⟩)
    else
      let after := flushBuf upload.buffer device.room
      let closed := closed.append file after.sent
      match after.left with
      | none => some (closed.append file (after.buffer.take device.later),
          ⟨.closed (.error (.other ("BufWriter error: " ++ device.error))), none⟩)
      | some _ =>
        match (ioError synced).bind fun _ => ioError parent with
        | .error error => some (closed, ⟨.closed (.error error), none⟩)
        | .ok () =>
          let stats : UploadStats := ⟨upload.bytesWritten, 1, now - upload.startTime⟩
          some ({ closed with
              uploads := s.uploads.put file (.renaming ⟨upload.tempPath, upload.targetPath, stats⟩) },
            ⟨.closed (.ok ()), none⟩)

/-- The rename of `finish`. It cannot succeed when the temporary file is gone, and if it fails the temporary
file is removed, where that is possible. -/
def rename (s : UploadDirectory) (file : Nat) (result : Option String) (removed : Bool) :
    Option (UploadDirectory × UploadOut) :=
  match s.uploads.get file with
  | none | some (.writing _) => none
  | some (.renaming rest) =>
    let closed := { s with uploads := s.uploads.delete file }
    match ioError result with
    | .error error => some (
        if removed then { closed with disk := closed.disk.unlink rest.tempPath } else closed,
        ⟨.finished (.error error), none⟩)
    | .ok () => (closed.disk.read rest.tempPath).map fun bytes =>
      ({ closed with disk := closed.disk.rename rest.tempPath rest.targetPath },
        ⟨.finished (.ok rest.stats), some (.publish rest.targetPath file bytes, .done)⟩)

/-- `abort`: dropping the writer sends what is still buffered. -/
def abort (s : UploadDirectory) (file room : Nat) (removed : Option String) :
    Option (UploadDirectory × UploadOut) :=
  match s.uploads.get file with
  | none | some (.renaming _) => none
  | some (.writing upload) =>
    let closed := { s with uploads := s.uploads.delete file }
    if upload.finished then
      some (closed, ⟨.aborted (.error (.other "Upload already finished")), none⟩)
    else
      let closed := closed.append file (upload.buffer.take room)
      match ioError removed with
      | .error error => some (closed, ⟨.aborted (.error error), none⟩)
      | .ok () => if (closed.disk.names.get upload.tempPath).isSome then
          some ({ closed with disk := closed.disk.unlink upload.tempPath }, ⟨.aborted (.ok ()), none⟩)
        else none

/-- The end of an upload that was neither finished nor aborted, or of the process it is in. -/
def lose (s : UploadDirectory) (file room : Nat) : UploadDirectory × UploadOut :=
  let lost := match s.uploads.get file with
    | some (.writing upload) => s.append file (upload.buffer.take room)
    | none | some (.renaming _) => s
  ({ lost with uploads := s.uploads.delete file }, ⟨.done, none⟩)

/-- `LocalStorage::reader`. -/
def reader (s : UploadDirectory) (name : String) : UploadDirectory × UploadOut :=
  let file := s.disk.names.get name
  ({ s with opened := file.toList ++ s.opened }, clientOut (.reader name) (.opened file))

/-- `LocalStorage::writer`: the file under the name is truncated, for everyone who has it opened. -/
def writer (s : UploadDirectory) (name : String) : UploadDirectory × UploadOut :=
  let (disk, file) := s.disk.create name
  ({ s with disk := disk, opened := file :: s.opened }, clientOut (.writer name file) (.opened (some file)))

end UploadDirectory

inductive UploadAct where
  | putMultipartStream (target : String) (random : Except String String) (now : Nat)
  | write (file : Nat) (data : Chunk) (device : Device)
  | finish (file : Nat) (device : Device) (synced parent : Option String) (now : Nat)
  | rename (file : Nat) (result : Option String) (removed : Bool)
  | abort (file room : Nat) (removed : Option String)
  | lose (file room : Nat)
  | reader (name : String)
  | writer (name : String)
  | readAt (file offset length : Nat)
  | writeAt (file offset : Nat) (bytes : Chunk)
  | delete (name : String)

def uploadStep (s : UploadDirectory) : UploadAct → Option (UploadDirectory × UploadOut)
  | .putMultipartStream target random now => s.putMultipartStream target random now
  | .write file data device => s.write file data device
  | .finish file device synced parent now => s.finish file device synced parent now
  | .rename file result removed => s.rename file result removed
  | .abort file room removed => s.abort file room removed
  | .lose file room => some (s.lose file room)
  | .reader name => some (s.reader name)
  | .writer name => some (s.writer name)
  | .readAt file offset length =>
    if file ∈ s.opened then
      some (s, clientOut (.readAt file offset length) (.content (((s.disk.content file).drop offset).take length)))
    else none
  | .writeAt file offset bytes =>
    if file ∈ s.opened then
      some ({ s with disk := s.disk.writeAt file offset bytes }, clientOut (.writeAt file offset bytes) .done)
    else none
  | .delete name => some ({ s with disk := s.disk.unlink name }, clientOut (.delete name) .done)

def uploadDirectory : Machine UploadDirectory UploadAct UploadOut := ⟨uploadStep⟩

/-- A name that a temporary file can have. -/
def TempName (name : String) : Prop := tempText.toList <+: name.toList

instance (name : String) : Decidable (TempName name) :=
  inferInstanceAs (Decidable (tempText.toList <+: name.toList))

/-- Clients leave the names of temporary files alone. -/
def LeavesTemps : UploadAct → Prop
  | .putMultipartStream target _ _ => ¬TempName target
  | .reader name | .writer name | .delete name => ¬TempName name
  | _ => True

instance : (act : UploadAct) → Decidable (LeavesTemps act)
  | .putMultipartStream target _ _ => inferInstanceAs (Decidable ¬TempName target)
  | .reader name | .writer name | .delete name => inferInstanceAs (Decidable ¬TempName name)
  | .write .. | .finish .. | .rename .. | .abort .. | .lose .. | .readAt .. | .writeAt .. =>
    inferInstanceAs (Decidable True)

/-! ### A store to which uploads are published whole -/

/-- The numbers of the objects under names, and what every object holds. -/
structure Objects where
  names : Kv String Nat
  contents : Kv Nat Chunk

/-- A published object is a new one, with all its bytes at once. Who writes an object that it has opened is
seen as it writes. -/
def objectStep (objects : Objects) : ObjectCall → Option (Objects × ObjectAnswer)
  | .publish name file bytes =>
    if objects.contents.get file = none then
      some (⟨objects.names.put name file, objects.contents.put file bytes⟩, .done)
    else none
  | .reader name => some (objects, .opened (objects.names.get name))
  | .writer name file =>
    if objects.names.get name = some file ∨ objects.names.get name = none ∧ objects.contents.get file = none then
      some (⟨objects.names.put name file, objects.contents.put file []⟩, .opened (some file))
    else none
  | .readAt file offset length => (objects.contents.get file).map fun bytes =>
    (objects, .content ((bytes.drop offset).take length))
  | .writeAt file offset bytes => (objects.contents.get file).map fun old =>
    (⟨objects.names, objects.contents.put file (Disk.overwritten old offset bytes)⟩, .done)
  | .delete name => some (⟨objects.names.delete name, objects.contents⟩, .done)

def objectStore : Machine Objects ObjectCall ObjectAnswer := ⟨objectStep⟩

/-- A file that no temporary name stands for. -/
def Visible (disk : Disk String UInt8) (file : Nat) : Prop :=
  file < disk.unused ∧ ∀ temp, TempName temp → disk.names.get temp ≠ some file

/-- The files under the names that are not temporary, and the files that clients have opened, are the
objects. -/
structure Shows (s : UploadDirectory) (objects : Objects) : Prop where
  names : ∀ name, ¬TempName name → objects.names.get name = s.disk.names.get name
  held : ∀ name file, ¬TempName name → s.disk.names.get name = some file → objects.contents.get file ≠ none
  opened : ∀ file ∈ s.opened, objects.contents.get file ≠ none
  contents : ∀ file bytes, objects.contents.get file = some bytes →
    s.disk.content file = bytes ∧ Visible s.disk file

/-- An upload under way has a temporary file of its own, and no other name. -/
def Placed (disk : Disk String UInt8) (uploads : Kv Nat UploadStage) : Prop :=
  ∀ file stage, uploads.get file = some stage → TempName stage.tempPath ∧
    ¬TempName stage.targetPath ∧ disk.names.get stage.tempPath = some file ∧ stage.finished = false

/-- The uploads have their temporary files, and nobody has opened one. -/
structure Orderly (s : UploadDirectory) : Prop where
  placed : Placed s.disk s.uploads
  visible : ∀ file ∈ s.opened, Visible s.disk file

/-- A step keeps the uploads orderly, and what it changes is what the object store's call changes. -/
structure Serves (s s' : UploadDirectory) (out : UploadOut) : Prop where
  orderly : Orderly s'
  shows {objects : Objects} : Shows s objects →
    match out.seen with
    | none => Shows s' objects
    | some (call, answer) => ∃ after, objectStep objects call = some (after, answer) ∧ Shows s' after

variable {s s' : UploadDirectory} {out : UploadOut} {file : Nat} {temp target name : String}
  {objects : Objects}

/-! ### Names, files and objects -/

theorem TempName.ne (isTemp : TempName temp) (notTemp : ¬TempName name) : temp ≠ name := by
  rintro rfl
  exact notTemp isTemp

/-- A file has one name. -/
theorem visible_of_linked {disk : Disk String UInt8} (notTemp : ¬TempName name)
    (linked : disk.names.get name = some file) : Visible disk file :=
  ⟨disk.used name file linked, fun _ isTemp stands => isTemp.ne notTemp (disk.apart _ _ _ stands linked)⟩

theorem ne_of_linked {disk : Disk String UInt8} {temp' : String} {other : Nat}
    (found : disk.names.get temp' = some other) (linked : disk.names.get temp = some file)
    (different : other ≠ file) : temp' ≠ temp := by
  rintro rfl
  exact different (Option.some.inj (found.symm.trans linked))

/-- No object is lost when one is put. -/
theorem known_put {contents : Kv Nat Chunk} {other : Nat} (known : contents.get other ≠ none) (file : Nat)
    (bytes : Chunk) : (contents.put file bytes).get other ≠ none := by
  rw [Kv.get_put]
  split
  · exact nofun
  · exact known

/-- A directory without uploads in which no file is open. -/
theorem Orderly.start (idle : s.uploads = .empty) (closed : s.opened = []) : Orderly s := by
  refine ⟨fun file stage found => ?_, fun file opened => ?_⟩
  · rw [idle] at found
    cases found
  · rw [closed] at opened
    cases opened

/-! ### Disks -/

/-- A change of temporary files only. -/
structure Hidden (disk disk' : Disk String UInt8) : Prop where
  unused : disk.unused ≤ disk'.unused
  names : ∀ name, ¬TempName name → disk'.names.get name = disk.names.get name
  temps : ∀ temp file, TempName temp → disk'.names.get temp = some file →
    disk.names.get temp = some file ∨ disk.unused ≤ file
  contents : ∀ file, Visible disk file → disk'.content file = disk.content file

namespace Hidden

variable {disk disk' : Disk String UInt8}

theorem refl (disk : Disk String UInt8) : Hidden disk disk :=
  ⟨Nat.le_refl _, fun _ _ => rfl, fun _ _ _ found => .inl found, fun _ _ => rfl⟩

theorem visible (hidden : Hidden disk disk') (seen : Visible disk file) : Visible disk' file := by
  refine ⟨seen.1.trans_le hidden.unused, fun temp isTemp found => ?_⟩
  rcases hidden.temps temp file isTemp found with found | new
  · exact seen.2 temp isTemp found
  · exact absurd (seen.1.trans_le new) (Nat.lt_irrefl _)

theorem trans {disk'' : Disk String UInt8} (first : Hidden disk disk') (second : Hidden disk' disk'') :
    Hidden disk disk'' where
  unused := first.unused.trans second.unused
  names name other := (second.names name other).trans (first.names name other)
  temps temp file isTemp found := by
    rcases second.temps temp file isTemp found with found | new
    · exact first.temps temp file isTemp found
    · exact .inr (first.unused.trans new)
  contents file seen := (second.contents file (first.visible seen)).trans (first.contents file seen)

theorem set (isTemp : TempName temp) (linked : disk.names.get temp = some file) (bytes : Chunk) :
    Hidden disk (disk.set file bytes) := by
  refine ⟨Nat.le_refl _, fun _ _ => rfl, fun _ _ _ found => .inl found, fun other seen => ?_⟩
  have different : other ≠ file := by
    rintro rfl
    exact seen.2 temp isTemp linked
  exact Disk.content_set_ne different

theorem append (s : UploadDirectory) (isTemp : TempName temp) (linked : s.disk.names.get temp = some file)
    (bytes : Chunk) : Hidden s.disk (s.append file bytes).disk := set isTemp linked _

theorem unlink (disk : Disk String UInt8) (isTemp : TempName temp) : Hidden disk (disk.unlink temp) := by
  refine ⟨Nat.le_refl _, fun name other => ?_, fun name file _ found => ?_, fun _ _ => rfl⟩
  · rw [Disk.unlink_names, if_neg (isTemp.ne other).symm]
  · rw [Disk.unlink_names] at found
    split at found
    · cases found
    · exact .inl found

theorem create (isTemp : TempName temp) (free : disk.names.get temp = none) :
    Hidden disk (disk.create temp).1 := by
  have fresh : (disk.create temp).2 = disk.unused := Disk.create_free free
  refine ⟨(Disk.create_unused ..).1, fun name other => ?_, fun name file _ found => ?_, fun file seen => ?_⟩
  · rw [Disk.create_names, if_neg (isTemp.ne other).symm]
  · rw [Disk.create_names] at found
    split at found
    · cases found
      exact .inr (Nat.le_of_eq fresh.symm)
    · exact .inl found
  · exact Disk.create_content_ne (fresh ▸ Nat.ne_of_lt seen.1)

theorem shows {uploads : Kv Nat UploadStage} (hidden : Hidden s.disk disk') (shows : Shows s objects) :
    Shows ⟨disk', uploads, s.opened⟩ objects where
  names name other := (shows.names name other).trans (hidden.names name other).symm
  held name file other linked := shows.held name file other ((hidden.names name other).symm.trans linked)
  opened := shows.opened
  contents := by
    intro file bytes found
    obtain ⟨same, seen⟩ := shows.contents file bytes found
    exact ⟨(hidden.contents file seen).trans same, hidden.visible seen⟩

/-- A step that only changes temporary files needs no call of the object store. -/
theorem serves {uploads : Kv Nat UploadStage} {answer : UploadAnswer} (hidden : Hidden s.disk disk')
    (orderly : Orderly s) (placed : Placed disk' uploads) :
    Serves s ⟨disk', uploads, s.opened⟩ ⟨answer, none⟩ :=
  ⟨⟨placed, fun file opened => hidden.visible (orderly.visible file opened)⟩, hidden.shows⟩

end Hidden

theorem tempName_append (random : String) : TempName (tempText ++ random) := by
  rw [TempName, String.toList_append]
  exact List.prefix_append ..

/-! ### Uploads -/

theorem Placed.put {disk disk' : Disk String UInt8} {uploads : Kv Nat UploadStage} {stage old : UploadStage}
    (placed : Placed disk uploads) (held : uploads.get file = some old) (temp : stage.tempPath = old.tempPath)
    (target : stage.targetPath = old.targetPath) (unfinished : stage.finished = false)
    (names : disk'.names = disk.names) : Placed disk' (uploads.put file stage) := by
  intro other kept found
  rw [names]
  rw [Kv.get_put] at found
  split at found
  · rename_i same
    cases found
    obtain ⟨isTemp, notTemp, linked, -⟩ := placed file old held
    rw [temp, target, same]
    exact ⟨isTemp, notTemp, linked, unfinished⟩
  · exact placed other kept found

/-- An upload that ends takes no name from the others. -/
theorem Placed.delete {disk disk' : Disk String UInt8} {uploads : Kv Nat UploadStage}
    (placed : Placed disk uploads) (names : ∀ temp other, TempName temp → disk.names.get temp = some other →
      other ≠ file → disk'.names.get temp = some other) : Placed disk' (uploads.delete file) := by
  intro other kept found
  rw [Kv.get_delete] at found
  split at found
  · cases found
  · rename_i different
    obtain ⟨isTemp, notTemp, linked, unfinished⟩ := placed other kept found
    exact ⟨isTemp, notTemp, names _ _ isTemp linked different, unfinished⟩

theorem Placed.of_temps {disk disk' : Disk String UInt8} {uploads : Kv Nat UploadStage}
    (placed : Placed disk uploads) (names : ∀ temp, TempName temp → disk'.names.get temp = disk.names.get temp) :
    Placed disk' uploads := by
  intro other kept found
  obtain ⟨isTemp, notTemp, linked, unfinished⟩ := placed other kept found
  exact ⟨isTemp, notTemp, (names _ isTemp).trans linked, unfinished⟩

theorem Orderly.append_hidden {old : UploadStage} (orderly : Orderly s) (held : s.uploads.get file = some old)
    (bytes : Chunk) : Hidden s.disk (s.append file bytes).disk :=
  .append s (orderly.placed file old held).1 (orderly.placed file old held).2.2.1 _

/-- Nobody has opened the file of an upload. -/
theorem Orderly.ne_of_opened {stage : UploadStage} (orderly : Orderly s) (opened : file ∈ s.opened)
    {other : Nat} (held : s.uploads.get other = some stage) : other ≠ file := by
  rintro rfl
  obtain ⟨isTemp, -, linked, -⟩ := orderly.placed other stage held
  exact (orderly.visible other opened).2 _ isTemp linked

/-! ### Steps -/

theorem putMultipartStream_serves (orderly : Orderly s) (notTemp : ¬TempName target)
    (moved : s.putMultipartStream target random now = some (s', out)) : Serves s s' out := by
  unfold UploadDirectory.putMultipartStream at moved
  split at moved
  · cases moved
    exact ⟨orderly, id⟩
  · rename_i random'
    dsimp only at moved
    split at moved
    · rename_i free
      cases moved
      refine (Hidden.create (tempName_append random') free).serves orderly ?_
      intro other kept found
      rw [Disk.create_names]
      rw [Kv.get_put] at found
      split at found
      · rename_i same
        cases found
        rw [same]
        exact ⟨tempName_append _, notTemp, if_pos rfl, rfl⟩
      · obtain ⟨isTemp, notTemp, linked, unfinished⟩ := orderly.placed other kept found
        have apart : kept.tempPath ≠ tempText ++ random' := by
          intro same
          rw [same, free] at linked
          cases linked
        rw [if_neg apart]
        exact ⟨isTemp, notTemp, linked, unfinished⟩
    · cases moved

theorem write_serves (orderly : Orderly s) (moved : s.write file data device = some (s', out)) :
    Serves s s' out := by
  unfold UploadDirectory.write at moved
  split at moved
  · cases moved
  · cases moved
  · rename_i upload held
    have hidden (bytes : Chunk) := orderly.append_hidden held bytes
    split at moved
    · cases moved
      exact ⟨orderly, id⟩
    · rename_i unfinished
      have open_ : upload.finished = false := Bool.not_eq_true _ ▸ unfinished
      dsimp only at moved
      split at moved <;> cases moved
      · exact (hidden _).serves orderly (orderly.placed.put held rfl rfl open_ rfl)
      · exact (hidden _).serves orderly (orderly.placed.put held rfl rfl open_ rfl)

theorem finish_serves (orderly : Orderly s)
    (moved : s.finish file device synced parent now = some (s', out)) : Serves s s' out := by
  have ended {disk : Disk String UInt8} (names : disk.names = s.disk.names) :
      Placed disk (s.uploads.delete file) :=
    orderly.placed.delete fun _ _ _ linked _ => names ▸ linked
  unfold UploadDirectory.finish at moved
  split at moved
  · cases moved
  · cases moved
  · rename_i upload held
    obtain ⟨isTemp, -, linked, -⟩ := orderly.placed file _ held
    have hidden (bytes : Chunk) := orderly.append_hidden held bytes
    dsimp only at moved
    split at moved
    · cases moved
      exact (Hidden.refl _).serves orderly (ended rfl)
    · split at moved
      · cases moved
        -- the drop of the writer after its last call
        exact ((hidden _).trans (.append (s.append file _) isTemp linked _)).serves orderly (ended rfl)
      · split at moved <;> cases moved
        · exact (hidden _).serves orderly (ended rfl)
        · exact (hidden _).serves orderly (orderly.placed.put held rfl rfl rfl rfl)

/-- The renamed file is a new object. -/
theorem rename_shows (orderly : Orderly s) (held : s.uploads.get file = some (.renaming rest))
    (shows : Shows s objects) : ∃ after,
      objectStep objects (.publish rest.targetPath file (s.disk.content file)) = some (after, .done) ∧
      Shows ⟨s.disk.rename rest.tempPath rest.targetPath, s.uploads.delete file, s.opened⟩ after := by
  have isTemp : TempName rest.tempPath := (orderly.placed file _ held).1
  have notTemp : ¬TempName rest.targetPath := (orderly.placed file _ held).2.1
  have linked : s.disk.names.get rest.tempPath = some file := (orderly.placed file _ held).2.2.1
  have new : objects.contents.get file = none := by
    by_contra known
    obtain ⟨bytes, found⟩ := Option.ne_none_iff_exists'.mp known
    exact (shows.contents file bytes found).2.2 _ isTemp linked
  refine ⟨_, if_pos new, fun name other => ?_, fun name other notTemp linked' => ?_, fun other opened =>
    known_put (shows.opened other opened) _ _, fun other bytes found => ?_⟩
  · rw [Kv.get_put, Disk.rename_names linked, if_neg (isTemp.ne other).symm, shows.names name other]
  · change (s.disk.rename rest.tempPath rest.targetPath).names.get name = some other at linked'
    rw [Disk.rename_names linked] at linked'
    split at linked'
    · cases linked'
      rw [Kv.get_put_self]
      exact nofun
    · split at linked'
      · cases linked'
      · exact known_put (shows.held name other notTemp linked') _ _
  · change (s.disk.rename rest.tempPath rest.targetPath).content other = bytes ∧ Visible _ other
    -- the temporary name is gone, and the target is none
    have hides (temp : String) (tempName : TempName temp) :
        (s.disk.rename rest.tempPath rest.targetPath).names.get temp =
          if temp = rest.tempPath then none else s.disk.names.get temp := by
      rw [Disk.rename_names linked, if_neg (tempName.ne notTemp)]
    rw [Disk.rename_content, Visible, Disk.rename_unused]
    rw [Kv.get_put] at found
    split at found
    · rename_i same
      cases found
      subst same
      refine ⟨rfl, s.disk.used _ _ linked, fun temp tempName stands => ?_⟩
      rw [hides temp tempName] at stands
      split at stands
      · cases stands
      · rename_i apart
        exact apart (s.disk.apart _ _ _ stands linked)
    · obtain ⟨same, seen⟩ := shows.contents other bytes found
      refine ⟨same, seen.1, fun temp tempName stands => ?_⟩
      rw [hides temp tempName] at stands
      split at stands
      · cases stands
      · exact seen.2 temp tempName stands

theorem rename_serves (orderly : Orderly s)
    (moved : s.rename file result removed = some (s', out)) : Serves s s' out := by
  unfold UploadDirectory.rename at moved
  split at moved
  · cases moved
  · cases moved
  · rename_i rest held
    have isTemp : TempName rest.tempPath := (orderly.placed file _ held).1
    have notTemp : ¬TempName rest.targetPath := (orderly.placed file _ held).2.1
    have linked : s.disk.names.get rest.tempPath = some file := (orderly.placed file _ held).2.2.1
    dsimp only at moved
    split at moved
    · cases moved
      split
      · refine (Hidden.unlink _ isTemp).serves orderly (orderly.placed.delete fun temp other _ found different => ?_)
        rw [Disk.unlink_names, if_neg (ne_of_linked found linked different), found]
      · exact (Hidden.refl _).serves orderly (orderly.placed.delete fun _ _ _ found _ => found)
    · change (s.disk.read rest.tempPath).map _ = _ at moved
      rw [Disk.read_of_link linked, Option.map_some] at moved
      cases moved
      refine ⟨⟨orderly.placed.delete fun temp other tempName found different => ?_, fun other opened => ?_⟩,
        rename_shows orderly held⟩
      · change (s.disk.rename rest.tempPath rest.targetPath).names.get temp = some other
        rw [Disk.rename_names linked, if_neg (tempName.ne notTemp),
          if_neg (ne_of_linked found linked different), found]
      · obtain ⟨used, seen⟩ := orderly.visible other opened
        refine ⟨used.trans_eq (Disk.rename_unused _).symm, fun temp tempName stands => ?_⟩
        change (s.disk.rename rest.tempPath rest.targetPath).names.get temp = some other at stands
        rw [Disk.rename_names linked, if_neg (tempName.ne notTemp)] at stands
        split at stands
        · cases stands
        · exact seen temp tempName stands

theorem abort_serves (orderly : Orderly s)
    (moved : s.abort file room removed = some (s', out)) : Serves s s' out := by
  unfold UploadDirectory.abort at moved
  split at moved
  · cases moved
  · cases moved
  · rename_i upload held
    have isTemp : TempName upload.tempPath := (orderly.placed file _ held).1
    have linked : s.disk.names.get upload.tempPath = some file := (orderly.placed file _ held).2.2.1
    have hidden (bytes : Chunk) := orderly.append_hidden held bytes
    dsimp only at moved
    split at moved
    · cases moved
      exact (Hidden.refl _).serves orderly (orderly.placed.delete fun _ _ _ found _ => found)
    · split at moved
      · cases moved
        exact (hidden _).serves orderly (orderly.placed.delete fun _ _ _ found _ => found)
      · split at moved <;> cases moved
        refine ((hidden _).trans (.unlink _ isTemp)).serves orderly
          (orderly.placed.delete fun temp other _ found different => ?_)
        rw [Disk.unlink_names, if_neg (ne_of_linked found linked different)]
        exact found

theorem lose_serves (orderly : Orderly s) (file room : Nat) : Serves s (s.lose file room).1 (s.lose file room).2 := by
  unfold UploadDirectory.lose
  dsimp only
  split
  · rename_i upload held
    exact (orderly.append_hidden held _).serves orderly (orderly.placed.delete fun _ _ _ found _ => found)
  · exact (Hidden.refl _).serves orderly (orderly.placed.delete fun _ _ _ found _ => found)
  · exact (Hidden.refl _).serves orderly (orderly.placed.delete fun _ _ _ found _ => found)

theorem reader_serves (orderly : Orderly s) (notTemp : ¬TempName name) :
    Serves s (s.reader name).1 (s.reader name).2 := by
  refine ⟨⟨orderly.placed, fun file opened => ?_⟩, fun {objects} shows => ⟨objects, ?_, ?_⟩⟩
  · rcases List.mem_append.mp opened with new | old
    · exact visible_of_linked notTemp (Option.mem_toList.mp new)
    · exact orderly.visible file old
  · exact congrArg (fun file => some (objects, ObjectAnswer.opened file)) (shows.names name notTemp)
  · refine ⟨shows.names, shows.held, fun file opened => ?_, shows.contents⟩
    rcases List.mem_append.mp opened with new | old
    · exact shows.held name file notTemp (Option.mem_toList.mp new)
    · exact shows.opened file old

theorem writer_serves (orderly : Orderly s) (notTemp : ¬TempName name) :
    Serves s (s.writer name).1 (s.writer name).2 := by
  -- the temporary names are as before
  have hides (temp : String) (tempName : TempName temp) :
      (s.disk.create name).1.names.get temp = s.disk.names.get temp := by
    rw [Disk.create_names, if_neg (tempName.ne notTemp)]
  have seen {file : Nat} (before : Visible s.disk file) : Visible (s.disk.create name).1 file :=
    ⟨before.1.trans_le (Disk.create_unused ..).1, fun temp tempName => hides temp tempName ▸ before.2 temp tempName⟩
  have own : Visible (s.disk.create name).1 (s.disk.create name).2 :=
    visible_of_linked notTemp (Disk.create_linked ..)
  refine ⟨⟨orderly.placed.of_temps hides, fun file opened => ?_⟩, fun {objects} shows => ?_⟩
  · rcases List.mem_cons.mp opened with rfl | old
    · exact own
    · exact seen (orderly.visible file old)
  · have allowed : objects.names.get name = some (s.disk.create name).2 ∨
        objects.names.get name = none ∧ objects.contents.get (s.disk.create name).2 = none := by
      rw [shows.names name notTemp]
      cases linked : s.disk.names.get name with
      | some file => exact .inl (congrArg some (Disk.create_held linked).symm)
      | none =>
        refine .inr ⟨rfl, ?_⟩
        by_contra known
        obtain ⟨bytes, found⟩ := Option.ne_none_iff_exists'.mp known
        have used := (shows.contents _ bytes found).2.1
        rw [Disk.create_free linked] at used
        exact Nat.lt_irrefl _ used
    have called : objectStep objects (.writer name (s.disk.create name).2) = some (⟨objects.names.put name _,
        objects.contents.put (s.disk.create name).2 []⟩, .opened (some (s.disk.create name).2)) := if_pos allowed
    refine ⟨_, called, fun other free => ?_, fun other file free linked => ?_, fun file opened => ?_,
      fun file bytes found => ?_⟩
    · change (objects.names.put name _).get other = (s.disk.create name).1.names.get other
      rw [Kv.get_put, Disk.create_names, shows.names other free]
    · change (s.disk.create name).1.names.get other = some file at linked
      rw [Disk.create_names] at linked
      split at linked
      · cases linked
        rw [Kv.get_put_self]
        exact nofun
      · exact known_put (shows.held other file free linked) _ _
    · rcases List.mem_cons.mp opened with same | old
      · have written : (objects.contents.put (s.disk.create name).2 []).get file = some [] :=
          same ▸ Kv.get_put_self ..
        exact written ▸ nofun
      · exact known_put (shows.opened file old) _ _
    · change (s.disk.create name).1.content file = bytes ∧ Visible (s.disk.create name).1 file
      rw [Kv.get_put] at found
      split at found
      · rename_i same
        cases found
        rw [same]
        exact ⟨Disk.create_content .., own⟩
      · rename_i different
        obtain ⟨same, before⟩ := shows.contents file bytes found
        exact ⟨(Disk.create_content_ne different).trans same, seen before⟩

theorem readAt_serves (orderly : Orderly s) (opened : file ∈ s.opened) (offset length : Nat) :
    Serves s s (clientOut (.readAt file offset length)
      (.content (((s.disk.content file).drop offset).take length))) := by
  refine ⟨orderly, fun {objects} shows => ⟨objects, ?_, shows⟩⟩
  obtain ⟨bytes, found⟩ := Option.ne_none_iff_exists'.mp (shows.opened file opened)
  rw [objectStep, found, (shows.contents file bytes found).1]
  rfl

theorem writeAt_serves (orderly : Orderly s) (opened : file ∈ s.opened) (offset : Nat) (bytes : Chunk) :
    Serves s { s with disk := s.disk.writeAt file offset bytes } (clientOut (.writeAt file offset bytes) .done) := by
  refine ⟨⟨orderly.placed, orderly.visible⟩, fun {objects} shows => ?_⟩
  obtain ⟨old, known⟩ := Option.ne_none_iff_exists'.mp (shows.opened file opened)
  refine ⟨⟨objects.names, objects.contents.put file (Disk.overwritten old offset bytes)⟩, ?_, shows.names,
    fun name other free linked => known_put (shows.held name other free linked) _ _,
    fun other opened => known_put (shows.opened other opened) _ _, fun other held found => ?_⟩
  · rw [objectStep, known]
    rfl
  · change (objects.contents.put file _).get other = some held at found
    change (s.disk.set file _).content other = held ∧ Visible s.disk other
    rw [Kv.get_put] at found
    split at found
    · rename_i same
      cases found
      subst same
      obtain ⟨same, seen⟩ := shows.contents other old known
      rw [Disk.content_set, same]
      exact ⟨rfl, seen⟩
    · rename_i different
      rw [Disk.content_set_ne different]
      exact shows.contents other held found

theorem delete_serves (orderly : Orderly s) (notTemp : ¬TempName name) :
    Serves s { s with disk := s.disk.unlink name } (clientOut (.delete name) .done) := by
  have hides (temp : String) (tempName : TempName temp) :
      (s.disk.unlink name).names.get temp = s.disk.names.get temp := by
    rw [Disk.unlink_names, if_neg (tempName.ne notTemp)]
  have seen {file : Nat} (before : Visible s.disk file) : Visible (s.disk.unlink name) file :=
    ⟨before.1, fun temp tempName => hides temp tempName ▸ before.2 temp tempName⟩
  refine ⟨⟨orderly.placed.of_temps hides, fun file opened => seen (orderly.visible file opened)⟩,
    fun {objects} shows => ⟨_, rfl, fun other free => ?_, fun other file free linked => ?_, shows.opened,
      fun file bytes found => ?_⟩⟩
  · change (objects.names.delete name).get other = (s.disk.unlink name).names.get other
    rw [Disk.unlink_names, Kv.get_delete, shows.names other free]
  · change (s.disk.unlink name).names.get other = some file at linked
    rw [Disk.unlink_names] at linked
    split at linked
    · cases linked
    · exact shows.held other file free linked
  · obtain ⟨same, before⟩ := shows.contents file bytes found
    exact ⟨same, seen before⟩

theorem uploadStep_serves (orderly : Orderly s) {act : UploadAct} (leaves : LeavesTemps act)
    (moved : uploadStep s act = some (s', out)) : Serves s s' out := by
  cases act with
  | putMultipartStream target random now => exact putMultipartStream_serves orderly leaves moved
  | write file data device => exact write_serves orderly moved
  | finish file device synced parent now => exact finish_serves orderly moved
  | rename file result removed => exact rename_serves orderly moved
  | abort file room removed => exact abort_serves orderly moved
  | lose file room =>
    cases moved
    exact lose_serves orderly file room
  | reader name =>
    cases moved
    exact reader_serves orderly leaves
  | writer name =>
    cases moved
    exact writer_serves orderly leaves
  | readAt file offset length =>
    obtain ⟨opened, moved⟩ := Option.ite_none_right_eq_some.mp moved
    cases moved
    exact readAt_serves orderly opened offset length
  | writeAt file offset bytes =>
    obtain ⟨opened, moved⟩ := Option.ite_none_right_eq_some.mp moved
    cases moved
    exact writeAt_serves orderly opened offset bytes
  | delete name =>
    cases moved
    exact delete_serves orderly leaves

/-! ### Runs -/

/-- What a directory shows at first, when nobody has opened a file. -/
def objectsOf (disk : Disk String UInt8) : Objects where
  names := disk.names
  contents := Kv.empty.putAll ((disk.names.entries.filter fun entry => ¬TempName entry.1).map fun entry =>
    (entry.2, disk.content entry.2))

theorem mem_objectsOf {disk : Disk String UInt8} {bytes : Chunk} :
    (file, bytes) ∈ (disk.names.entries.filter fun entry => ¬TempName entry.1).map (fun entry =>
      (entry.2, disk.content entry.2)) ↔
    disk.content file = bytes ∧ ∃ name, disk.names.get name = some file ∧ ¬TempName name := by
  rw [List.mem_map]
  constructor
  · rintro ⟨⟨name, other⟩, member, same⟩
    cases same
    obtain ⟨entry, notTemp⟩ := List.mem_filter.mp member
    exact ⟨rfl, name, (Kv.mem_entries _).mp entry, of_decide_eq_true notTemp⟩
  · rintro ⟨rfl, name, linked, notTemp⟩
    exact ⟨(name, file), List.mem_filter.mpr ⟨(Kv.mem_entries _).mpr linked, decide_eq_true notTemp⟩, rfl⟩

theorem shows_objectsOf (closed : s.opened = []) : Shows s (objectsOf s.disk) := by
  refine ⟨fun _ _ => rfl, fun name file notTemp linked => ?_, fun file opened => ?_, fun file bytes found => ?_⟩
  · have known := mem_objectsOf.mpr ⟨rfl, name, linked, notTemp⟩
    obtain ⟨bytes, -, found⟩ := Kv.get_putAll_of_mem Kv.empty (List.mem_map_of_mem known)
    exact Option.ne_none_iff_exists'.mpr ⟨bytes, found⟩
  · rw [closed] at opened
    cases opened
  · change (Kv.empty.putAll _).get file = some bytes at found
    by_cases known : file ∈ ((s.disk.names.entries.filter fun entry => ¬TempName entry.1).map fun entry =>
        (entry.2, s.disk.content entry.2)).map Prod.fst
    · obtain ⟨held, member, same⟩ := Kv.get_putAll_of_mem Kv.empty known
      cases same.symm.trans found
      obtain ⟨content, name, linked, notTemp⟩ := mem_objectsOf.mp member
      exact ⟨content, visible_of_linked notTemp linked⟩
    · rw [Kv.get_putAll_of_notMem known] at found
      cases found

/-- To clients that leave the names of temporary files alone, a directory is a store to which uploads are
published whole: in every order of the steps, and however uploads fail, each answer is the one of the store
when an upload is one call of it, made as it finishes. -/
theorem uploads_appear_whole (idle : start.uploads = .empty) (closed : start.opened = [])
    (run : Run (uploadDirectory.under fun _ act => LeavesTemps act) start history s) :
    ∃ calls objects, Run objectStore (objectsOf start.disk) calls objects ∧ Shows s objects ∧
      calls.map (fun e => (e.act, e.out)) = shown UploadOut.seen history := by
  have simulates : Simulates (uploadDirectory.under fun _ act => LeavesTemps act) objectStore UploadOut.seen
      fun s objects => Orderly s ∧ Shows s objects := by
    intro s objects act s' out related moved
    obtain ⟨leaves, moved⟩ := (Machine.under_step ..).mp moved
    obtain ⟨orderly, shows⟩ := uploadStep_serves related.1 leaves moved
    have shown := shows related.2
    cases seen : out.seen with
    | none =>
      rw [seen] at shown
      exact ⟨orderly, shown⟩
    | some call =>
      rw [seen] at shown
      obtain ⟨after, called, shown⟩ := shown
      exact ⟨after, called, orderly, shown⟩
  obtain ⟨calls, objects, spec, related, same⟩ := simulates.run ⟨.start idle closed, shows_objectsOf closed⟩ run
  exact ⟨calls, objects, spec, related.2, same⟩

/-- One upload, whose only write fails on a full device, with a client that reads what was there before and
what is there afterwards. -/
def interrupted : List UploadAct :=
  [.writer "v", .writeAt 0 0 [7, 8, 9], .putMultipartStream "v" (.ok "a") 0, .write 1 [1, 2] ⟨0, "full", 0⟩,
    .reader "v", .finish 1 ⟨2, "", 0⟩ none none 5, .rename 1 none true, .readAt 0 0 8, .reader "v", .readAt 1 0 8]

/-- What clients were told, the latest first. -/
def clientAnswers (history : History UploadDirectory UploadAct UploadOut) : List ObjectAnswer :=
  (shown UploadOut.seen history).map Prod.snd

theorem interrupted_upload_appears_whole : ∃ history s calls objects,
    Run (uploadDirectory.under fun _ act => LeavesTemps act) ⟨.empty, .empty, []⟩ history s ∧
      (clientAnswers history).take 4 = [.content [1, 2], .opened (some 1), .content [7, 8, 9], .done] ∧
      Run objectStore (objectsOf .empty) calls objects ∧ Shows s objects ∧
      calls.map (fun e => (e.act, e.out)) = shown UploadOut.seen history := by
  obtain ⟨history, s, run, observed⟩ := Run.of_observation (uploadDirectory.under fun _ act => LeavesTemps act)
    ⟨.empty, .empty, []⟩ interrupted (fun seen => (clientAnswers seen.1).take 4)
    [.content [1, 2], .opened (some 1), .content [7, 8, 9], .done] rfl
  obtain ⟨calls, objects, seen⟩ := uploads_appear_whole rfl rfl run
  exact ⟨history, s, calls, objects, run, observed, seen⟩

/-! ### What is published -/

/-- The writes of an upload, with whether they succeeded, in the order of the calls. -/
def writesOf (file : Nat) : History UploadDirectory UploadAct UploadOut → List (Chunk × Bool)
  | [] => []
  | e :: older => writesOf file older ++ match e.act, e.out.answer with
    | .write target data _, .written result => if target = file then [(data, result.isOk)] else []
    | _, _ => []

/-- Bytes made of every chunk whose write succeeded and of a part from the start of each other one, and the
lengths of the former. -/
inductive Made : List (Chunk × Bool) → Chunk → Nat → Prop where
  | nothing : Made [] [] 0
  | whole (before : Made writes bytes counted) :
      Made (writes ++ [(data, true)]) (bytes ++ data) (counted + data.length)
  | cut (before : Made writes bytes counted) (start : part <+: data) :
      Made (writes ++ [(data, false)]) (bytes ++ part) counted

/-- How far the file of an upload has come. -/
def UploadStage.Holds (content : Chunk) (writes : List (Chunk × Bool)) : UploadStage → Prop
  | .writing upload => Made writes (content ++ upload.buffer) upload.bytesWritten
  | .renaming rest => Made writes content rest.stats.bytesUploaded

/-- Every upload holds what was written to it, and files that are not there yet were not written to. -/
structure Written (history : History UploadDirectory UploadAct UploadOut) (s : UploadDirectory) : Prop where
  holds : ∀ file stage, s.uploads.get file = some stage →
    stage.Holds (s.disk.content file) (writesOf file history)
  fresh : ∀ file, s.disk.unused ≤ file → writesOf file history = []

theorem Made.of_all_succeeded (made : Made writes bytes counted) (succeeded : ∀ write ∈ writes, write.2 = true) :
    bytes = (writes.map Prod.fst).flatten ∧ counted = bytes.length := by
  induction made with
  | nothing => exact ⟨rfl, rfl⟩
  | whole _ ih =>
    obtain ⟨same, length⟩ := ih fun write member => succeeded write (List.mem_append_left _ member)
    rw [List.map_append, List.flatten_append, ← same, List.length_append, length]
    simp
  | cut => exact absurd (succeeded _ (List.mem_append_right _ (List.mem_singleton.mpr rfl))) (by simp)

theorem Made.counted_le (made : Made writes bytes counted) : counted ≤ bytes.length := by
  induction made with
  | nothing => exact Nat.le_refl _
  | whole _ ih =>
    rw [List.length_append]
    omega
  | cut _ _ ih =>
    rw [List.length_append]
    omega

theorem writesOf_cons {e : Transition UploadDirectory UploadAct UploadOut}
    (other : ∀ data device, e.act ≠ .write file data device) (older : History UploadDirectory UploadAct UploadOut) :
    writesOf file (e :: older) = writesOf file older := by
  rw [writesOf]
  split
  · rename_i target data device result act answer
    split
    · rename_i same
      exact absurd (same ▸ act) (other data device)
    · exact List.append_nil _
  · exact List.append_nil _

theorem content_append (s : UploadDirectory) (file : Nat) (bytes : Chunk) :
    (s.append file bytes).disk.content file = s.disk.content file ++ bytes := Disk.content_set

theorem content_append_ne {other : Nat} (different : other ≠ file) (bytes : Chunk) :
    (s.append file bytes).disk.content other = s.disk.content other := Disk.content_set_ne different

/-- What a step without a write makes of the uploads: each one goes on from what it held, or is new. -/
def GoesOn (s s' : UploadDirectory) : Prop :=
  ∀ file stage, s'.uploads.get file = some stage →
    (∃ before, s.uploads.get file = some before ∧
      ∀ writes, before.Holds (s.disk.content file) writes → stage.Holds (s'.disk.content file) writes) ∨
    s.disk.unused ≤ file ∧ stage.Holds (s'.disk.content file) []

theorem Written.quiet {act : UploadAct} (written : Written older s)
    (silent : ∀ file data device, act ≠ .write file data device) (unused : s.disk.unused ≤ s'.disk.unused)
    (goesOn : GoesOn s s') : Written (⟨s, act, out, s'⟩ :: older) s' := by
  refine ⟨fun file stage found => ?_, fun file free => ?_⟩
  · rw [writesOf_cons (silent file)]
    rcases goesOn file stage found with ⟨before, held, on⟩ | ⟨free, new⟩
    · exact on _ (written.holds file before held)
    · rw [written.fresh file free]
      exact new
  · rw [writesOf_cons (silent file)]
    exact written.fresh file (unused.trans free)

theorem goesOn_same {disk : Disk String UInt8} {opened : List Nat}
    (same : ∀ other stage, s.uploads.get other = some stage → disk.content other = s.disk.content other) :
    GoesOn s ⟨disk, s.uploads, opened⟩ := by
  intro other stage found
  refine .inl ⟨stage, found, fun writes holds => ?_⟩
  rw [same other stage found]
  exact holds

/-- When an upload ends, the others hold what they held. -/
theorem goesOn_delete {disk : Disk String UInt8} {file : Nat}
    (same : ∀ other, other ≠ file → disk.content other = s.disk.content other) :
    GoesOn s ⟨disk, s.uploads.delete file, s.opened⟩ := by
  intro other stage found
  change (s.uploads.delete file).get other = some stage at found
  rw [Kv.get_delete] at found
  split at found
  · cases found
  · rename_i different
    refine .inl ⟨stage, found, fun writes holds => ?_⟩
    rw [same other different]
    exact holds

theorem putMultipartStream_goesOn
    (moved : s.putMultipartStream target random now = some (s', out)) :
    s.disk.unused ≤ s'.disk.unused ∧ GoesOn s s' := by
  unfold UploadDirectory.putMultipartStream at moved
  split at moved
  · cases moved
    exact ⟨Nat.le_refl _, goesOn_same fun _ _ _ => rfl⟩
  · rename_i random'
    dsimp only at moved
    split at moved
    · rename_i free
      cases moved
      have fresh : (s.disk.create (tempText ++ random')).2 = s.disk.unused := Disk.create_free free
      refine ⟨(Disk.create_unused _ _).1, fun other stage found => ?_⟩
      change (s.uploads.put _ _).get other = some stage at found
      rw [Kv.get_put] at found
      split at found
      · rename_i same
        cases found
        refine .inr ⟨by rw [same, fresh], ?_⟩
        rw [same]
        change Made [] ((s.disk.create (tempText ++ random')).1.content _ ++ []) 0
        rw [Disk.create_content]
        exact .nothing
      · rename_i different
        refine .inl ⟨stage, found, fun writes holds => ?_⟩
        change stage.Holds ((s.disk.create (tempText ++ random')).1.content other) writes
        rw [Disk.create_content_ne different]
        exact holds
    · cases moved

theorem finish_goesOn (moved : s.finish file device synced parent now = some (s', out)) :
    s.disk.unused ≤ s'.disk.unused ∧ GoesOn s s' := by
  unfold UploadDirectory.finish at moved
  split at moved
  · cases moved
  · cases moved
  · rename_i upload held
    dsimp only at moved
    split at moved
    · cases moved
      exact ⟨Nat.le_refl _, goesOn_delete fun _ _ => rfl⟩
    · split at moved
      · cases moved
        refine ⟨Nat.le_refl _, goesOn_delete fun other different => ?_⟩
        exact (content_append_ne (s := s.append file _) different _).trans (content_append_ne different _)
      · rename_i emptied
        split at moved <;> cases moved
        · exact ⟨Nat.le_refl _, goesOn_delete fun other different => content_append_ne different _⟩
        · refine ⟨Nat.le_refl _, fun other stage found => .inl ?_⟩
          change (s.uploads.put file _).get other = some stage at found
          rw [Kv.get_put] at found
          split at found
          · rename_i same
            cases found
            subst same
            refine ⟨_, held, fun writes holds => ?_⟩
            -- everything that was buffered is in the file
            have all : (flushBuf upload.buffer device.room).sent = upload.buffer := by
              have kept := flushBuf_keeps upload.buffer device.room
              rwa [flushBuf_empties (by simp [emptied]), List.append_nil] at kept
            change Made writes ((s.append other _).disk.content other) upload.bytesWritten
            rw [content_append, all]
            exact holds
          · rename_i different
            refine ⟨stage, found, fun writes holds => ?_⟩
            change stage.Holds ((s.append file _).disk.content other) writes
            rw [content_append_ne different]
            exact holds

theorem rename_goesOn (moved : s.rename file result removed = some (s', out)) :
    s.disk.unused ≤ s'.disk.unused ∧ GoesOn s s' := by
  unfold UploadDirectory.rename at moved
  split at moved
  · cases moved
  · cases moved
  · dsimp only at moved
    split at moved
    · cases moved
      split <;> exact ⟨Nat.le_refl _, goesOn_delete fun _ _ => rfl⟩
    · obtain ⟨bytes, -, same⟩ := Option.map_eq_some_iff.mp moved
      cases same
      refine ⟨Nat.le_of_eq (Disk.rename_unused _).symm, goesOn_delete fun other _ => Disk.rename_content ..⟩

theorem abort_goesOn (moved : s.abort file room removed = some (s', out)) :
    s.disk.unused ≤ s'.disk.unused ∧ GoesOn s s' := by
  unfold UploadDirectory.abort at moved
  split at moved
  · cases moved
  · cases moved
  · dsimp only at moved
    split at moved
    · cases moved
      exact ⟨Nat.le_refl _, goesOn_delete fun _ _ => rfl⟩
    · split at moved
      · cases moved
        exact ⟨Nat.le_refl _, goesOn_delete fun other different => content_append_ne different _⟩
      · split at moved <;> cases moved
        exact ⟨Nat.le_refl _, goesOn_delete fun other different => content_append_ne different _⟩

theorem lose_goesOn (s : UploadDirectory) (file room : Nat) : s.disk.unused ≤ (s.lose file room).1.disk.unused ∧
    GoesOn s (s.lose file room).1 := by
  unfold UploadDirectory.lose
  dsimp only
  split
  · exact ⟨Nat.le_refl _, goesOn_delete fun other different => content_append_ne different _⟩
  · exact ⟨Nat.le_refl _, goesOn_delete fun _ _ => rfl⟩
  · exact ⟨Nat.le_refl _, goesOn_delete fun _ _ => rfl⟩

/-- A client that truncates a file has another one than the uploads. -/
theorem writer_goesOn (orderly : Orderly s) (notTemp : ¬TempName name) : GoesOn s (s.writer name).1 := by
  refine goesOn_same fun other stage found => ?_
  obtain ⟨isTemp, -, linked, -⟩ := orderly.placed other stage found
  have different : other ≠ (s.disk.create name).2 := by
    intro same
    have apart : stage.tempPath ≠ name := isTemp.ne notTemp
    have kept : (s.disk.create name).1.names.get stage.tempPath = some other := by
      rw [Disk.create_names, if_neg apart, linked]
    exact apart ((s.disk.create name).1.apart _ _ _ kept (same ▸ Disk.create_linked ..))
  exact Disk.create_content_ne different

theorem writeAt_goesOn (orderly : Orderly s) (opened : file ∈ s.opened) (offset : Nat) (bytes : Chunk) :
    GoesOn s { s with disk := s.disk.writeAt file offset bytes } :=
  goesOn_same fun _ _ held => Disk.content_set_ne (orderly.ne_of_opened opened held)

theorem writesOf_written (file : Nat) (data : Chunk) (device : Device) (result : Except StorageError Unit)
    (seen : Option (ObjectCall × ObjectAnswer)) (older : History UploadDirectory UploadAct UploadOut) :
    writesOf file (⟨s, .write file data device, ⟨.written result, seen⟩, s'⟩ :: older) =
      writesOf file older ++ [(data, result.isOk)] :=
  congrArg _ (if_pos rfl)

theorem write_written (orderly : Orderly s) (written : Written older s)
    (moved : s.write file data device = some (s', out)) :
    Written (⟨s, .write file data device, out, s'⟩ :: older) s' := by
  have apart {other : Nat} (different : other ≠ file) :
      ∀ data' device', UploadAct.write file data device ≠ .write other data' device' := by
    rintro data' device' same
    cases same
    exact different rfl
  unfold UploadDirectory.write at moved
  split at moved
  · cases moved
  · cases moved
  · rename_i upload held
    have linked : s.disk.names.get upload.tempPath = some file := (orderly.placed file _ held).2.2.1
    have known : file < s.disk.unused := s.disk.used _ _ linked
    have before : Made (writesOf file older) (s.disk.content file ++ upload.buffer) upload.bytesWritten :=
      written.holds file _ held
    obtain ⟨part, grown, start, whole⟩ := writeAndFlush_takes upload.buffer data device.room
    -- whichever way the call ends, the others keep what they had
    have others {stage : UploadStage} (own : stage.Holds (s.disk.content file ++
        (writeAndFlush upload.buffer data device.room).sent)
          (writesOf file (⟨s, .write file data device, out, s'⟩ :: older)))
        (state : s' = { s.append file (writeAndFlush upload.buffer data device.room).sent with
          uploads := s.uploads.put file stage }) :
        Written (⟨s, .write file data device, out, s'⟩ :: older) s' := by
      subst state
      refine ⟨fun other stage' found => ?_, fun other free => ?_⟩
      · change (s.uploads.put file stage).get other = some stage' at found
        change stage'.Holds ((s.append file _).disk.content other) _
        rw [Kv.get_put] at found
        split at found
        · rename_i same
          cases found
          subst same
          rw [content_append]
          exact own
        · rename_i different
          rw [content_append_ne different, writesOf_cons (apart different)]
          exact written.holds other stage' found
      · have different : other ≠ file := by
          rintro rfl
          exact absurd (known.trans_le free) (Nat.lt_irrefl _)
        rw [writesOf_cons (apart different)]
        exact written.fresh other free
    have together : s.disk.content file ++ (writeAndFlush upload.buffer data device.room).sent ++
        (writeAndFlush upload.buffer data device.room).buffer =
          s.disk.content file ++ upload.buffer ++ part := by
      rw [List.append_assoc, grown, List.append_assoc]
    split at moved
    · rename_i finished
      have unfinished : upload.finished = false := (orderly.placed file _ held).2.2.2
      rw [unfinished] at finished
      cases finished
    · dsimp only at moved
      split at moved <;> cases moved
      · refine others ?_ rfl
        change Made (writesOf _ (_ :: _)) (s.disk.content file ++ (writeAndFlush upload.buffer data device.room).sent
          ++ (writeAndFlush upload.buffer data device.room).buffer) upload.bytesWritten
        rw [writesOf_written, together]
        exact .cut before start
      · rename_i left
        refine others ?_ rfl
        change Made (writesOf _ (_ :: _)) (s.disk.content file ++ (writeAndFlush upload.buffer data device.room).sent
          ++ (writeAndFlush upload.buffer data device.room).buffer) (upload.bytesWritten + data.length)
        rw [writesOf_written, together, whole (by simp [left])]
        exact .whole before

theorem uploadStep_written (orderly : Orderly s) (written : Written older s) {act : UploadAct}
    (leaves : LeavesTemps act) (moved : uploadStep s act = some (s', out)) :
    Written (⟨s, act, out, s'⟩ :: older) s' := by
  cases act with
  | putMultipartStream target random now =>
    have kept := putMultipartStream_goesOn moved
    exact written.quiet (by simp) kept.1 kept.2
  | write file data device => exact write_written orderly written moved
  | finish file device synced parent now =>
    have kept := finish_goesOn moved
    exact written.quiet (by simp) kept.1 kept.2
  | rename file result removed =>
    have kept := rename_goesOn moved
    exact written.quiet (by simp) kept.1 kept.2
  | abort file room removed =>
    have kept := abort_goesOn moved
    exact written.quiet (by simp) kept.1 kept.2
  | lose file room =>
    cases moved
    have kept := lose_goesOn s file room
    exact written.quiet (by simp) kept.1 kept.2
  | reader name =>
    cases moved
    exact written.quiet (by simp) (Nat.le_refl _) (goesOn_same fun _ _ _ => rfl)
  | writer name =>
    cases moved
    exact written.quiet (by simp) (Disk.create_unused ..).1 (writer_goesOn orderly leaves)
  | readAt file offset length =>
    obtain ⟨-, moved⟩ := Option.ite_none_right_eq_some.mp moved
    cases moved
    exact written.quiet (by simp) (Nat.le_refl _) (goesOn_same fun _ _ _ => rfl)
  | writeAt file offset bytes =>
    obtain ⟨opened, moved⟩ := Option.ite_none_right_eq_some.mp moved
    cases moved
    exact written.quiet (by simp) (Nat.le_refl _) (writeAt_goesOn orderly opened offset bytes)
  | delete name =>
    cases moved
    exact written.quiet (by simp) (Nat.le_refl _) (goesOn_same fun _ _ _ => rfl)

theorem run_written (idle : start.uploads = .empty) (closed : start.opened = [])
    (run : Run (uploadDirectory.under fun _ act => LeavesTemps act) start history s) :
    Orderly s ∧ Written history s := by
  refine run.history_invariant (P := fun history s => Orderly s ∧ Written history s) ?_ ?_
  · refine ⟨.start idle closed, fun file stage found => ?_, fun _ _ => rfl⟩
    rw [idle] at found
    cases found
  · intro older s act s' out _ kept moved
    obtain ⟨leaves, moved⟩ := (Machine.under_step ..).mp moved
    exact ⟨(uploadStep_serves kept.1 leaves moved).orderly, uploadStep_written kept.1 kept.2 leaves moved⟩

theorem putMultipartStream_silent (moved : s.putMultipartStream target random now = some (s', out)) :
    out.seen = none := by
  unfold UploadDirectory.putMultipartStream at moved
  split at moved
  · cases moved
    rfl
  · dsimp only at moved
    split at moved <;> cases moved
    rfl

theorem write_silent (moved : s.write file data device = some (s', out)) : out.seen = none := by
  unfold UploadDirectory.write at moved
  dsimp only at moved
  split at moved <;> try cases moved
  split at moved
  · cases moved
    rfl
  · split at moved <;> cases moved <;> rfl

theorem finish_silent (moved : s.finish file device synced parent now = some (s', out)) : out.seen = none := by
  unfold UploadDirectory.finish at moved
  dsimp only at moved
  split at moved <;> try cases moved
  split at moved
  · cases moved
    rfl
  · split at moved
    · cases moved
      rfl
    · split at moved <;> cases moved <;> rfl

theorem abort_silent (moved : s.abort file room removed = some (s', out)) : out.seen = none := by
  unfold UploadDirectory.abort at moved
  dsimp only at moved
  split at moved <;> try cases moved
  split at moved
  · cases moved
    rfl
  · split at moved
    · cases moved
      rfl
    · split at moved <;> cases moved
      rfl

/-- A rename publishes what the temporary file holds. -/
theorem rename_publishes (moved : s.rename file result removed = some (s', out))
    (published : out.seen = some (.publish name number bytes, answer)) : ∃ rest,
      s.uploads.get file = some (.renaming rest) ∧ rest.targetPath = name ∧ file = number ∧
      s.disk.read rest.tempPath = some bytes ∧ out.answer = .finished (.ok rest.stats) := by
  unfold UploadDirectory.rename at moved
  split at moved
  · cases moved
  · cases moved
  · rename_i rest held
    dsimp only at moved
    split at moved
    · cases moved
      cases published
    · obtain ⟨held', found, same⟩ := Option.map_eq_some_iff.mp moved
      cases same
      cases published
      exact ⟨rest, held, rfl, rfl, found, rfl⟩

/-- Only a rename publishes. -/
theorem publish_renames {act : UploadAct} (moved : uploadStep s act = some (s', out))
    (published : out.seen = some (.publish name file bytes, answer)) : ∃ result removed rest,
      act = .rename file result removed ∧ s.uploads.get file = some (.renaming rest) ∧
      rest.targetPath = name ∧ s.disk.read rest.tempPath = some bytes ∧
      out.answer = .finished (.ok rest.stats) := by
  cases act with
  | putMultipartStream target random now =>
    rw [putMultipartStream_silent moved] at published
    cases published
  | write file data device =>
    rw [write_silent moved] at published
    cases published
  | finish file device synced parent now =>
    rw [finish_silent moved] at published
    cases published
  | rename file result removed =>
    obtain ⟨rest, held, target, rfl, found⟩ := rename_publishes moved published
    exact ⟨result, removed, rest, rfl, held, target, found⟩
  | abort file room removed =>
    rw [abort_silent moved] at published
    cases published
  | lose file room =>
    cases moved
    cases published
  | readAt file offset length =>
    obtain ⟨-, moved⟩ := Option.ite_none_right_eq_some.mp moved
    cases moved
    cases published
  | writeAt file offset bytes =>
    obtain ⟨-, moved⟩ := Option.ite_none_right_eq_some.mp moved
    cases moved
    cases published
  | reader name | writer name | delete name =>
    cases moved
    cases published

/-- What an upload publishes is made of every chunk it was told it had written, in order, and of a leading
part of every chunk it was told had failed; the size it reports counts only the former. If nothing failed,
the object is what was written and its size is the one reported. -/
theorem published_content {newer older : History UploadDirectory UploadAct UploadOut}
    {e : Transition UploadDirectory UploadAct UploadOut} (idle : start.uploads = .empty)
    (closed : start.opened = [])
    (run : Run (uploadDirectory.under fun _ act => LeavesTemps act) start (newer ++ e :: older) s)
    (published : e.out.seen = some (.publish name file bytes, answer)) : ∃ result removed stats,
      e.act = .rename file result removed ∧ e.out.answer = .finished (.ok stats) ∧
      Made (writesOf file older) bytes stats.bytesUploaded ∧ stats.bytesUploaded ≤ bytes.length ∧
      ((∀ write ∈ writesOf file older, write.2 = true) →
        bytes = ((writesOf file older).map Prod.fst).flatten ∧ stats.bytesUploaded = bytes.length) := by
  obtain ⟨before, moved⟩ := run.split
  obtain ⟨orderly, written⟩ := run_written idle closed before
  obtain ⟨-, moved⟩ := (Machine.under_step ..).mp moved
  obtain ⟨result, removed, rest, act, held, -, found, told⟩ := publish_renames moved published
  have linked : e.pre.disk.names.get rest.tempPath = some file := (orderly.placed file _ held).2.2.1
  rw [Disk.read_of_link linked] at found
  cases found
  have made : Made (writesOf file older) (e.pre.disk.content file) rest.stats.bytesUploaded :=
    written.holds file _ held
  exact ⟨result, removed, rest.stats, act, told, made, made.counted_le, made.of_all_succeeded⟩

/-- The chunk that could not be written is in the object, and is not counted. -/
theorem interrupted_upload_published : ∃ e older s,
    Run (uploadDirectory.under fun _ act => LeavesTemps act) ⟨.empty, .empty, []⟩ (e :: older) s ∧
      e.out.seen = some (.publish "v" 1 [1, 2], .done) ∧ writesOf 1 older = [([1, 2], false)] ∧
      ∃ result removed stats, e.act = .rename 1 result removed ∧
        e.out.answer = .finished (.ok stats) ∧ Made (writesOf 1 older) [1, 2] stats.bytesUploaded ∧
        stats.bytesUploaded ≤ 2 ∧ ((∀ write ∈ writesOf 1 older, write.2 = true) →
          [1, 2] = ((writesOf 1 older).map Prod.fst).flatten ∧ stats.bytesUploaded = 2) := by
  obtain ⟨history, s, run, observed⟩ := Run.of_observation (uploadDirectory.under fun _ act => LeavesTemps act)
    ⟨.empty, .empty, []⟩ (interrupted.take 7) (fun seen =>
      (seen.1.head?.bind fun e => e.out.seen, writesOf 1 seen.1))
    (some (.publish "v" 1 [1, 2], .done), [([1, 2], false)]) rfl
  obtain ⟨published, written⟩ := Prod.mk.inj observed
  cases history with
  | nil => cases published
  | cons e older =>
    change e.out.seen = _ at published
    have whole : Run (uploadDirectory.under fun _ act => LeavesTemps act) ⟨.empty, .empty, []⟩ ([] ++ e :: older) s :=
      run
    obtain ⟨result, removed, stats, act, told⟩ := published_content rfl rfl whole published
    have same : writesOf 1 (e :: older) = writesOf 1 older :=
      writesOf_cons (fun _ _ written => by rw [act] at written; cases written) older
    exact ⟨e, older, s, run, published, same ▸ written, result, removed, stats, act, told⟩

end Roboflow.Storage.StreamingUpload
