/-!
# Files

Reading and writing files as operations of some monad, and a tree of files in memory that offers
them.
-/

set_option autoImplicit false

namespace TensorArena

inductive FileError where
  | notFound
  | notDirectory
  | isDirectory
  | nameTooLong
  | other (text : String)
deriving DecidableEq, Repr

def FileError.message : FileError → String
  | notFound => "No such file or directory (os error 2)"
  | notDirectory => "Not a directory (os error 20)"
  | isDirectory => "Is a directory (os error 21)"
  | nameTooLong => "File name too long (os error 36)"
  | other text => text

/-- Access to files by path. -/
structure Files (m : Type → Type) where
  read : String → m (Except FileError ByteArray)
  write : String → String → m (Except FileError Unit)

/-- The text of a file, which must be UTF-8. -/
def Files.readText {m : Type → Type} [Monad m] (files : Files m) (path : String) :
    m (Except FileError String) := do
  match ← files.read path with
  | .error error => return .error error
  | .ok bytes =>
    match String.fromUTF8? bytes with
    | some text => return .ok text
    | none => return .error (.other "stream did not contain valid UTF-8")

/-- Files with the components of their paths. The directories are those on the way to a file. -/
structure FileTree where
  files : List (List String × ByteArray) := []

/-- What a path leads to: a directory, if it ends in dots, or a name in a directory that may
exist or not. -/
inductive Target where
  | directory
  | entry (place : List String)
deriving DecidableEq, Repr

namespace FileTree

/-- The parts of a path between slashes, without empty ones. -/
def components (path : String) : List String :=
  (path.splitOn "/").filter fun component => component ≠ ""

def ofFiles (files : List (String × ByteArray)) : FileTree where
  files := files.map fun file => ((components file.1).filter fun name => name ≠ ".", file.2)

def file? (tree : FileTree) (place : List String) : Option ByteArray := tree.files.lookup place

def isDirectory (tree : FileTree) (place : List String) : Bool :=
  place.isEmpty ||
    tree.files.any fun file => place.isPrefixOf file.1 && place.length < file.1.length

/-- The greatest number of bytes in a name. -/
def nameLimit : Nat := 255

/-- The greatest number of bytes in a path. -/
def pathLimit : Nat := 4095

/-- Follows components that lead out of the tree, where nothing is found. -/
def leave (path : List String) : Except FileError Target :=
  if path.all fun name => name = "." || name = ".." then .ok .directory else .error .notFound

/-- Follows components from a directory. A name before others must be that of a directory. -/
def walk (tree : FileTree) : List String → List String → Except FileError Target
  | _, [] => .ok .directory
  | place, name :: rest =>
    if name = "." then tree.walk place rest
    else if name = ".." then
      if place.isEmpty then leave rest else tree.walk place.dropLast rest
    else if rest.isEmpty then .ok (.entry (place ++ [name]))
    else if nameLimit < name.utf8ByteSize then .error .nameTooLong
    else
      let next := place ++ [name]
      if (tree.file? next).isSome then .error .notDirectory
      else if tree.isDirectory next then tree.walk next rest
      else .error .notFound

def locate (tree : FileTree) (path : String) : Except FileError Target :=
  if path.isEmpty then .error .notFound
  else if pathLimit < path.utf8ByteSize then .error .nameTooLong
  else if path.startsWith "/" then leave (components path)
  else tree.walk [] (components path)

/-- Whether a place has a name that is too long to exist. -/
def isTooLong (place : List String) : Bool :=
  place.getLast?.any fun name => nameLimit < name.utf8ByteSize

/-- A slash at the end asks for a directory, so no file is found. -/
def read (tree : FileTree) (path : String) : Except FileError ByteArray := do
  match ← tree.locate path with
  | .directory => .error .isDirectory
  | .entry place =>
    if isTooLong place then .error .nameTooLong
    else if tree.isDirectory place then .error .isDirectory
    else
      match tree.file? place with
      | none => .error .notFound
      | some bytes => if path.endsWith "/" then .error .notDirectory else .ok bytes

/-- A file is created, or replaced if there is one. A slash at the end asks for a directory, and
so is refused before anything is looked up. -/
def write (tree : FileTree) (path text : String) : Except FileError FileTree := do
  match ← tree.locate path with
  | .directory => .error .isDirectory
  | .entry place =>
    if path.endsWith "/" then .error .isDirectory
    else if isTooLong place then .error .nameTooLong
    else if tree.isDirectory place then .error .isDirectory
    else .ok ⟨tree.files.filter (fun file => file.1 ≠ place) ++ [(place, text.toUTF8)]⟩

/-- Access to a tree that is kept as a state. -/
def access : Files (StateM FileTree) where
  read path := do return (← get).read path
  write path text := do
    match (← get).write path text with
    | .ok tree => set tree; return .ok ()
    | .error error => return .error error

end FileTree

end TensorArena
