import LiveForm.Files.Path
import LiveForm.Table

/-!
# Files

A tree of directories and files, as far as reading and writing documents needs one.

* `Files.node`: what is at a path.
* `Files.readText`, `Files.writeText`: the content of a file.
* `Files.makeDirectories`: a directory with all that lead to it.
-/

namespace LiveForm

/-- What a path can lead to. -/
inductive FileNode where
  | directory
  | file (content : List UInt8)

/-- Why a file is not read or written. -/
inductive FileError where
  | notFound
  | notDirectory
  | isDirectory
  | alreadyExists
  /-- The content is no text. -/
  | encoding
  deriving DecidableEq

/-- Directories and files by the names that lead to them from the root. The root is a directory, and
so are those above it, in which nothing else is known. -/
structure Files where
  nodes : Table (List String) FileNode := .empty

namespace Files

/-- The place is the root or above it. -/
def atOrAboveRoot (place : List String) : Bool := place.all (· = "..")

/-- What is at a place. -/
def at? (fs : Files) (place : List String) : Option FileNode :=
  if atOrAboveRoot place then some .directory else fs.nodes.get? place

/-- The place that a name leads to from a directory. -/
def step (place : List String) (name : String) : List String :=
  if name = ".." && !atOrAboveRoot place then place.dropLast else place ++ [name]

/-- The place that names lead to from a place. Each step starts from a directory; the last may
lead to nothing. -/
def walk (fs : Files) (place : List String) : List String → Except FileError (List String)
  | [] => .ok place
  | name :: names =>
    match fs.at? place with
    | none => .error .notFound
    | some (.file _) => .error .notDirectory
    | some .directory => walk fs (step place name) names

/-- What is at a path. -/
def node (fs : Files) (p : Path) : Except FileError FileNode :=
  match fs.walk [] p.names with
  | .error e => .error e
  | .ok place =>
    match fs.at? place with
    | some n => .ok n
    | none => .error .notFound

/-- The path leads to something. -/
def has (fs : Files) (p : Path) : Bool := (fs.node p).isOk

/-- The path leads to a directory. -/
def hasDirectory (fs : Files) (p : Path) : Bool :=
  match fs.node p with
  | .ok .directory => true
  | _ => false

/-- The text in a file. -/
def readText (fs : Files) (p : Path) : Except FileError String :=
  match fs.node p with
  | .error e => .error e
  | .ok .directory => .error .isDirectory
  | .ok (.file content) =>
    match String.fromUTF8? (ByteArray.mk content.toArray) with
    | some s => .ok s
    | none => .error .encoding

/-- Puts content into the file at a path, whose directory must exist. -/
def write (fs : Files) (p : Path) (content : List UInt8) : Except FileError Files :=
  match fs.walk [] p.names with
  | .error e => .error e
  | .ok place =>
    match fs.at? place with
    | some .directory => .error .isDirectory
    | _ => .ok ⟨fs.nodes.set place (.file content)⟩

/-- The bytes of a text. -/
def bytesOf (s : String) : List UInt8 := s.toUTF8.toList

/-- Puts a text into the file at a path. -/
def writeText (fs : Files) (p : Path) (s : String) : Except FileError Files :=
  fs.write p (bytesOf s)

/-! ## Directories -/

/-- Makes the directory at a path, whose own directory must exist. -/
def makeDirectory (fs : Files) (p : Path) : Except FileError Files :=
  match fs.walk [] p.names with
  | .error e => .error e
  | .ok place =>
    match fs.at? place with
    | some _ => .error .alreadyExists
    | none => .ok ⟨fs.nodes.set place .directory⟩

/-- Makes a directory unless it is there. -/
def ensureDirectory (fs : Files) (p : Path) : Except FileError Files :=
  match fs.makeDirectory p with
  | .ok fs => .ok fs
  | .error .notFound => .error .notFound
  | .error e => if fs.hasDirectory p then .ok fs else .error e

/-- Makes the directory at the first names of a path, and before it those that lead to it. -/
def makeFirst (fs : Files) (names : List String) : (count : Nat) → Except FileError Files
  | 0 => .ok fs
  | n + 1 =>
    let p : Path := ⟨names.take (n + 1)⟩
    match fs.ensureDirectory p with
    | .error .notFound => do (← makeFirst fs names n).ensureDirectory p
    | result => result

/-- Makes a directory with all that lead to it, unless they are there. -/
def makeDirectories (fs : Files) (p : Path) : Except FileError Files :=
  fs.makeFirst p.names p.names.length

/-- Puts a text into a file and makes the directories that lead to it. -/
def saveText (fs : Files) (p : Path) (s : String) : Except FileError Files := do
  (← fs.makeDirectories p.parent).writeText p s

end Files

end LiveForm
