import Roboflow.Storage.Confinement
import Roboflow.Library.FileTrees

/-! The operations of `LocalStorage` on a file system, `local.rs`, and the parts of the standard library
they use. Symbolic links and permissions are left out. -/
namespace Roboflow.Storage
open Library UnixPath PathComponent

/-! ### File systems -/

def ValidName (text : List Char) : Prop :=
  text ≠ [] ∧ '/' ∉ text ∧ text ≠ ['.'] ∧ text ≠ ['.', '.']

instance (text : List Char) : Decidable (ValidName text) :=
  inferInstanceAs (Decidable (_ ∧ _ ∧ _ ∧ _))

abbrev FileName := {text : List Char // ValidName text}

abbrev FileSystem := FileTree FileName (List UInt8)

inductive IoError where
  | notFound
  | alreadyExists
  | notADirectory
  | isADirectory
  | invalidInput
  | unexpectedEof
  deriving DecidableEq

/-- How the operating system's errors print. -/
def IoError.text : IoError → List Char
  | .notFound => "No such file or directory (os error 2)".toList
  | .alreadyExists => "File exists (os error 17)".toList
  | .notADirectory => "Not a directory (os error 20)".toList
  | .isADirectory => "Is a directory (os error 21)".toList
  | .invalidInput => ("the source path is neither a regular file nor a symlink to a " ++
      "regular file").toList
  | .unexpectedEof => "failed to fill whole buffer".toList

/-- `StorageError` with the errors that only operations raise. -/
inductive OperationError where
  | storage (error : StorageError)
  | alreadyExists (message : List Char)
  | networkError (message : List Char)
  | timeout (message : List Char)
  | io (error : IoError)
  | cloud (message : List Char)
  deriving DecidableEq

/-- What a reader delivers, and the error it ends with, if any. -/
structure Reader where
  bytes : List UInt8
  fault : Option IoError
  deriving DecidableEq

namespace FileSystem

/-- The error for a path where nothing is: a file may stand on the way to it. -/
def absent (fs : FileSystem) (path : List FileName) : IoError :=
  if path.inits.any fun above => match fs.lookup above with
    | some (.file _) => true
    | _ => false
  then .notADirectory else .notFound

/-- `File::open`. A directory can be opened, but not read. -/
def openFile (fs : FileSystem) (path : List FileName) : Except IoError Reader :=
  match fs.lookup path with
  | some (.file bytes) => .ok ⟨bytes, none⟩
  | some .dir => .ok ⟨[], some .isADirectory⟩
  | none => .error (fs.absent path)

/-- The bytes of a file, in a directory that is there. -/
def setFile (fs : FileSystem) (path : List FileName) (bytes : List UInt8) : FileSystem :=
  match path.getLast? with
  | some name => fs.put path.dropLast name (.file bytes)
  | none => fs

/-- `File::create`: the file is emptied if it is there. -/
def createFile (fs : FileSystem) (path : List FileName) : Except IoError FileSystem :=
  match fs.lookup path with
  | some (.file _) => .ok (fs.setFile path [])
  | some .dir => .error .isADirectory
  | none => if fs.Ready path.dropLast then .ok (fs.setFile path []) else .error (fs.absent path)

/-- What is written at the end of an open file. -/
def append (fs : FileSystem) (path : List FileName) (bytes : List UInt8) : FileSystem :=
  match fs.lookup path with
  | some (.file held) => fs.setFile path (held ++ bytes)
  | _ => fs

/-- `fs::create_dir_all`. -/
def createDirAll (fs : FileSystem) (path : List FileName) : Except IoError FileSystem :=
  match fs.makeDirs [] path with
  | .ok after => .ok after
  | .error blocked => .error (if blocked = path then .alreadyExists else .notADirectory)

/-- `fs::copy`: the source is read after the target was emptied. -/
def copyFile (fs : FileSystem) (source target : List FileName) : Except IoError FileSystem :=
  match fs.lookup source with
  | some (.file _) =>
    match fs.createFile target with
    | .ok opened =>
      match opened.lookup source with
      | some (.file bytes) => .ok (opened.append target bytes)
      | _ => .ok opened
    | .error error => .error error
  | some .dir => .error .invalidInput
  | none => .error (fs.absent source)

end FileSystem

/-! ### Paths and places -/

def ofComponent : PathComponent → Option FileName
  | .normal name => if valid : ValidName name then some ⟨name, valid⟩ else none
  | _ => none

/-- Where a normalized path leads from the current directory. -/
def place (cwd : List FileName) (path : List PathComponent) : List FileName :=
  (if path.head? = some rootDir then [] else cwd) ++ path.filterMap ofComponent

def componentText : PathComponent → List Char
  | .normal name => name
  | .parentDir => ['.', '.']
  | .curDir => ['.']
  | .rootDir => []

/-- `Path::display`. -/
def pathText : List PathComponent → List Char
  | .rootDir :: rest => '/' :: List.intercalate ['/'] (rest.map componentText)
  | path => List.intercalate ['/'] (path.map componentText)

/-! ### The storage -/

/-- The fields of `ObjectMetadata`. -/
structure ObjectMetadata where
  path : List Char
  size : Nat
  lastModified : Option Nat
  contentType : Option (List Char)
  isDir : Bool
  deriving DecidableEq

/-- What a file system reports of its directories' sizes and of times. -/
structure Stats where
  dirSize : List FileName → Nat
  modified : List FileName → Option Nat

namespace LocalStorage

variable (cwd : List FileName) (root : List PathComponent)

/-- `full_path` of a path that was resolved before. -/
def fullPathOf (path : List PathComponent) : Except StorageError (List PathComponent) :=
  normalizePath (join root path) root

/-- An I/O error, unless nothing was found. -/
def notFoundOrIo (full : List PathComponent) : IoError → OperationError
  | .notFound => .storage (.notFound (pathText full))
  | error => .io error

/-- `ensure_parent`. -/
def ensureParent (path : List PathComponent) (fs : FileSystem) :
    Except OperationError Unit × FileSystem :=
  match UnixPath.parent path with
  | none => (.ok (), fs)
  | some parent =>
    if parent = [] then (.ok (), fs)
    else
      let parentPath := match fullPathOf root parent with
        | .ok full => full
        | .error _ => root
      match fs.createDirAll (place cwd parentPath) with
      | .ok after => (.ok (), after)
      | .error error =>
        (.error (.storage (.other ("failed to create parent directories: ".toList ++ error.text))), fs)

/-- `reader`. -/
def reader (path : List Char) (fs : FileSystem) : Except OperationError Reader :=
  match fullPath root path with
  | .error error => .error (.storage error)
  | .ok full =>
    match fs.openFile (place cwd full) with
    | .ok opened => .ok opened
    | .error error => .error (notFoundOrIo full error)

/-- `writer`: the place that is written to. -/
def writer (path : List Char) (fs : FileSystem) :
    Except OperationError (List FileName) × FileSystem :=
  match fullPath root path with
  | .error error => (.error (.storage error), fs)
  | .ok full =>
    match ensureParent cwd root full fs with
    | (.error error, after) => (.error error, after)
    | (.ok (), after) =>
      match after.createFile (place cwd full) with
      | .ok created => (.ok (place cwd full), created)
      | .error error => (.error (.io error), after)

/-- `copy`. -/
def copy (source target : List Char) (fs : FileSystem) : Except OperationError Unit × FileSystem :=
  match fullPath root source, fullPath root target with
  | .error error, _ => (.error (.storage error), fs)
  | .ok _, .error error => (.error (.storage error), fs)
  | .ok sourcePath, .ok targetPath =>
    match ensureParent cwd root targetPath fs with
    | (.error error, after) => (.error error, after)
    | (.ok (), after) =>
      match after.copyFile (place cwd sourcePath) (place cwd targetPath) with
      | .ok copied => (.ok (), copied)
      | .error error => (.error (notFoundOrIo sourcePath error), after)

variable (stats : Stats)

/-- `fs::metadata` of what is at a path. -/
def describe (full : List PathComponent) (node : FileNode (List UInt8)) : ObjectMetadata :=
  { path := pathText full
    size := match node with
      | .file bytes => bytes.length
      | .dir => stats.dirSize (place cwd full)
    lastModified := stats.modified (place cwd full)
    contentType := none
    isDir := node = .dir }

/-- `metadata`. -/
def metadata (path : List Char) (fs : FileSystem) : Except OperationError ObjectMetadata :=
  match fullPath root path with
  | .error error => .error (.storage error)
  | .ok full =>
    match fs.lookup (place cwd full) with
    | some node => .ok (describe cwd stats full node)
    | none => .error (notFoundOrIo full (fs.absent (place cwd full)))

/-- `size`. -/
def size (path : List Char) (fs : FileSystem) : Except OperationError Nat :=
  (metadata cwd root stats path fs).map ObjectMetadata.size

/-- `list`: the object itself if it is a file, and what is in it if it is a directory. -/
def list (path : List Char) (fs : FileSystem) : Except OperationError (List ObjectMetadata) :=
  match fullPath root path with
  | .error error => .error (.storage error)
  | .ok full =>
    match fs.lookup (place cwd full) with
    | none => .ok []
    | some (.file bytes) => .ok [describe cwd stats full (.file bytes)]
    | some .dir =>
      .ok ((fs.names (place cwd full)).filterMap fun name =>
        (fs.lookup (place cwd full ++ [name])).map
          (describe cwd stats (full ++ [.normal name.val])))

/-- `read_range`. -/
def readRange (path : List Char) (start : Nat) (end_ : Option Nat) (fs : FileSystem) :
    Except OperationError Reader := do
  let full ← (fullPath root path).mapError .storage
  let stop ← match end_ with
    | some stop => pure stop
    | none => size cwd root stats path fs
  if start > stop then
    throw (.storage (.invalidPath ("start offset ".toList ++ (toString start).toList ++
      " exceeds end offset ".toList ++ (toString stop).toList)))
  let opened ← (fs.openFile (place cwd full)).mapError (notFoundOrIo full)
  -- the bytes from `start` on are read into a buffer of the range's length
  if stop - start = 0 then pure ⟨[], none⟩
  else match opened.fault with
    | some fault => throw (.io fault)
    | none =>
      if stop - start ≤ (opened.bytes.drop start).length then
        pure ⟨(opened.bytes.drop start).take (stop - start), none⟩
      else throw (.io .unexpectedEof)

end LocalStorage

end Roboflow.Storage
