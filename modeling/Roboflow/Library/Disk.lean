import Roboflow.Library.Kv

/-! A directory of files. A name stands for a file, and a file that was opened stays
what it was when its name is removed: what is written to it then is under no name.
Creating a name that exists truncates its file, for everyone who has it opened. -/
namespace Library

/-- Names with the numbers of their files, and the contents of all files. -/
structure Disk (κ α : Type) [LinearOrder κ] where
  names : Kv κ Nat
  contents : Kv Nat (List α)
  unused : Nat
  used : ∀ name file, names.get name = some file → file < unused
  apart : ∀ name other file, names.get name = some file → names.get other = some file → name = other

namespace Disk

variable {κ α : Type} [LinearOrder κ]

def empty : Disk κ α where
  names := .empty
  contents := .empty
  unused := 0
  used := by simp
  apart := by simp

def content (disk : Disk κ α) (file : Nat) : List α := (disk.contents.get file).getD []

def read (disk : Disk κ α) (name : κ) : Option (List α) := (disk.names.get name).map disk.content

/-- The contents of a file are replaced. -/
def set (disk : Disk κ α) (file : Nat) (bytes : List α) : Disk κ α :=
  { disk with contents := disk.contents.put file bytes }

/-- A name for a file that has none. -/
def link (disk : Disk κ α) (name : κ) : Disk κ α where
  names := disk.names.put name disk.unused
  contents := disk.contents
  unused := disk.unused + 1
  used := by
    intro other file found
    rw [Kv.get_put] at found
    split at found
    · cases found
      exact Nat.lt_succ_self _
    · exact (disk.used other file found).trans (Nat.lt_succ_self _)
  apart := by
    intro first second file found found'
    rw [Kv.get_put] at found found'
    split at found <;> split at found'
    · simp_all
    · cases found
      exact absurd (disk.used second _ found') (Nat.lt_irrefl _)
    · cases found'
      exact absurd (disk.used first _ found) (Nat.lt_irrefl _)
    · exact disk.apart first second file found found'

/-- The name opened for writing, empty, with its file. -/
def create (disk : Disk κ α) (name : κ) : Disk κ α × Nat :=
  match disk.names.get name with
  | some file => (disk.set file [], file)
  | none => ((disk.link name).set disk.unused [], disk.unused)

/-- What a write makes of the contents: it goes over what is there, and a gap before it is filled. -/
def overwritten [Zero α] (old : List α) (offset : Nat) (bytes : List α) : List α :=
  old.take offset ++ List.replicate (offset - old.length) 0 ++ bytes ++ old.drop (offset + bytes.length)

def writeAt [Zero α] (disk : Disk κ α) (file offset : Nat) (bytes : List α) : Disk κ α :=
  disk.set file (overwritten (disk.content file) offset bytes)

def unlink (disk : Disk κ α) (name : κ) : Disk κ α where
  names := disk.names.delete name
  contents := disk.contents
  unused := disk.unused
  used := by
    intro other file found
    rw [Kv.get_delete] at found
    split at found
    · cases found
    · exact disk.used other file found
  apart := by
    intro first second file found found'
    rw [Kv.get_delete] at found found'
    split at found
    · cases found
    · split at found'
      · cases found'
      · exact disk.apart first second file found found'

/-- A file under another name, where it takes the place of the file that was there. -/
def rename (disk : Disk κ α) (name target : κ) : Disk κ α :=
  match moved : disk.names.get name with
  | none => disk
  | some file =>
    { names := (disk.names.delete name).put target file
      contents := disk.contents
      unused := disk.unused
      used := by
        intro other held found
        rw [Kv.get_put, Kv.get_delete] at found
        split at found
        · cases found
          exact disk.used name file moved
        · split at found
          · cases found
          · exact disk.used other held found
      apart := by
        -- no other name has the moved file
        have alone (other : κ) (found : (disk.names.delete name).get other = some file) : False := by
          rw [Kv.get_delete] at found
          split at found
          · cases found
          · exact absurd (disk.apart other name file found moved) (by assumption)
        intro first second held found found'
        rw [Kv.get_put] at found found'
        split at found <;> split at found'
        · simp_all
        · cases found
          exact (alone second found').elim
        · cases found'
          exact (alone first found).elim
        · rw [Kv.get_delete] at found found'
          split at found
          · cases found
          · split at found'
            · cases found'
            · exact disk.apart first second held found found' }

variable {disk : Disk κ α} {name : κ} {file : Nat} {bytes : List α}

@[simp] theorem content_set : (disk.set file bytes).content file = bytes := by
  simp [content, set]

theorem content_set_ne {other : Nat} (different : other ≠ file) :
    (disk.set file bytes).content other = disk.content other := by
  simp [content, set, Kv.get_put_ne _ different]

@[simp] theorem names_set : (disk.set file bytes).names = disk.names := rfl

theorem read_of_link (linked : disk.names.get name = some file) :
    disk.read name = some (disk.content file) := by
  rw [read, linked]
  rfl

theorem read_set (linked : disk.names.get name = some file) (other : κ) :
    (disk.set file bytes).read other = if other = name then some bytes else disk.read other := by
  by_cases same : other = name
  · subst same
    rw [if_pos rfl, read, names_set, linked, Option.map_some, content_set]
  · rw [if_neg same, read, read, names_set]
    cases found : disk.names.get other with
    | none => rfl
    | some file' =>
      have different : file' ≠ file := by
        rintro rfl
        exact same (disk.apart other name _ found linked)
      rw [Option.map_some, Option.map_some, content_set_ne different]

theorem create_names (disk : Disk κ α) (name other : κ) :
    (disk.create name).1.names.get other =
      if other = name then some (disk.create name).2 else disk.names.get other := by
  unfold create
  cases found : disk.names.get name with
  | some file =>
    rw [names_set]
    split
    · simp_all
    · rfl
  | none => exact Kv.get_put ..

theorem create_held (linked : disk.names.get name = some file) : (disk.create name).2 = file := by
  rw [create, linked]

theorem create_free (free : disk.names.get name = none) : (disk.create name).2 = disk.unused := by
  rw [create, free]

theorem create_linked (disk : Disk κ α) (name : κ) :
    (disk.create name).1.names.get name = some (disk.create name).2 := by
  rw [create_names, if_pos rfl]

theorem create_content (disk : Disk κ α) (name : κ) :
    (disk.create name).1.content (disk.create name).2 = [] := by
  unfold create
  split <;> exact content_set

/-- Creating a name leaves the files that others have opened. -/
theorem create_ne (used : file < disk.unused) (other : disk.names.get name ≠ some file) :
    (disk.create name).2 ≠ file := by
  unfold create
  cases found : disk.names.get name with
  | some own =>
    rintro rfl
    exact other found
  | none =>
    rintro rfl
    exact absurd used (Nat.lt_irrefl _)

theorem create_content_ne {other : Nat} (different : other ≠ (disk.create name).2) :
    (disk.create name).1.content other = disk.content other := by
  unfold create at different ⊢
  cases found : disk.names.get name with
  | some own =>
    rw [found] at different
    exact content_set_ne different
  | none =>
    rw [found] at different
    exact content_set_ne different

theorem create_unused (disk : Disk κ α) (name : κ) :
    disk.unused ≤ (disk.create name).1.unused ∧ (disk.create name).2 < (disk.create name).1.unused := by
  unfold create
  cases found : disk.names.get name with
  | some own => exact ⟨Nat.le_refl _, disk.used name own found⟩
  | none => exact ⟨Nat.le_succ _, Nat.lt_succ_self _⟩

theorem read_create (disk : Disk κ α) (name other : κ) :
    (disk.create name).1.read other = if other = name then some [] else disk.read other := by
  unfold create
  cases found : disk.names.get name with
  | some file => exact read_set found other
  | none =>
    have linked : (disk.link name).names.get name = some disk.unused := Kv.get_put_self ..
    show ((disk.link name).set disk.unused []).read other = _
    rw [read_set linked]
    by_cases same : other = name
    · rw [if_pos same, if_pos same]
    · rw [if_neg same, if_neg same]
      have kept : (disk.link name).names.get other = disk.names.get other :=
        Kv.get_put_ne _ same _
      rw [read, read, kept]
      rfl

/-- At the end of the file, a write appends. -/
theorem writeAt_end [Zero α] (disk : Disk κ α) (file : Nat) (bytes : List α) :
    disk.writeAt file (disk.content file).length bytes =
      disk.set file (disk.content file ++ bytes) := by
  have nothing : (disk.content file).drop ((disk.content file).length + bytes.length) = [] :=
    List.drop_eq_nil_of_le (Nat.le_add_right _ _)
  simp [writeAt, overwritten, nothing]

theorem read_unlink (disk : Disk κ α) (name other : κ) :
    (disk.unlink name).read other = if other = name then none else disk.read other := by
  have found : (disk.unlink name).names.get other =
      if other = name then none else disk.names.get other := Kv.get_delete ..
  rw [read, found]
  split <;> rfl

theorem unlink_names (disk : Disk κ α) (name other : κ) :
    (disk.unlink name).names.get other = if other = name then none else disk.names.get other :=
  Kv.get_delete ..

theorem rename_names (linked : disk.names.get name = some file) (target other : κ) :
    (disk.rename name target).names.get other =
      if other = target then some file else if other = name then none else disk.names.get other := by
  unfold rename
  split
  · rename_i missing
    rw [linked] at missing
    cases missing
  · rename_i moved
    rw [linked] at moved
    cases moved
    show ((disk.names.delete name).put target file).get other = _
    rw [Kv.get_put, Kv.get_delete]

@[simp] theorem rename_content (target : κ) (file : Nat) :
    (disk.rename name target).content file = disk.content file := by
  unfold rename
  split <;> rfl

@[simp] theorem rename_unused (target : κ) : (disk.rename name target).unused = disk.unused := by
  unfold rename
  split <;> rfl

end Disk

end Library
