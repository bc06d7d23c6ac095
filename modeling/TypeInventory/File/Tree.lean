import TypeInventory.Fault
import TypeInventory.File.Path
import Std.Data.TreeMap

set_option relaxedAutoImplicit false
set_option autoImplicit false

/-!
# Trees of files

A tree of files has directories and, in them, files. Directories have numbers; what is in a
directory is found by the number and a name. Paths are followed part by part: every part but the
last must lead to a directory, two dots lead upwards, and names and paths have a greatest length.
What may be at the end of a path depends on what is to be done there.

## Main definitions

* `Place`, `FileTree` — where something is, and what is where.
* `FileTree.locate`, `FileTree.find` — where a path leads to, and what is there.
* `FileTree.isFile`, `FileTree.isDirectory`, `FileTree.read`, `FileTree.write`,
  `FileTree.createDirectory` — the operations on a tree.
* `FileTree.filesBelow` — the files in a directory and in the directories within.

## Main results

* `FileTree.content?_put` — a file holds what was put there, and all other files stay.
-/

namespace TypeInventory

/-! ## Places -/

/-- Where something is in a tree: in which directory, and under which name. -/
structure Place where
  /-- The number of the directory. -/
  directory : Nat
  /-- The name in it. -/
  name : String
deriving DecidableEq, Repr, Inhabited

/-- Places are ordered by directory, then by name. -/
instance : Ord Place where
  compare := compareLex (compareOn Place.directory) (compareOn Place.name)

instance : Std.TransOrd Place :=
  inferInstanceAs (Std.TransCmp (compareLex (compareOn Place.directory) (compareOn Place.name)))

instance : Std.LawfulEqOrd Place where
  eq_of_compare {p q} h := by
    have h : (compareOn Place.directory p q).then (compareOn Place.name p q) = .eq := h
    rw [Ordering.then_eq_eq] at h
    cases p
    cases q
    simp only [Place.mk.injEq]
    exact ⟨Std.LawfulEqOrd.eq_of_compare h.1, Std.LawfulEqOrd.eq_of_compare h.2⟩

/-! ## Trees -/

/-- Directories and files. -/
structure FileTree where
  /-- The places of the directories, by their numbers. The root has number 0 and is a directory
  around itself. -/
  places : Array Place := #[⟨0, ""⟩]
  /-- The numbers of the directories, by their places; the root is not among them. -/
  directories : Std.TreeMap Place Nat := ∅
  /-- The contents of files. -/
  files : Std.TreeMap Place ByteArray := ∅
  /-- The directory at which paths start that do not start at the root. -/
  start : Nat := 0

/-- Where a path leads to. -/
inductive Destination where
  /-- A directory that needs no name: the root, or what dots stand for. -/
  | directory (number : Nat)
  /-- A place in a directory, whatever is there. A path with a slash at its end asks for a
  directory. -/
  | entry (place : Place) (asksDirectory : Bool)

namespace FileTree

instance : EmptyCollection FileTree :=
  ⟨{}⟩

/-- The greatest length of a name, in bytes. -/
def nameLimit : Nat := 255

/-- The greatest length of a path, in bytes. -/
def pathLimit : Nat := 4095

/-- The contents of the file at a place. -/
def content? (tree : FileTree) (place : Place) : Option ByteArray :=
  tree.files[place]?

/-- Whether there is a file at a place. -/
def hasFile (tree : FileTree) (place : Place) : Bool :=
  tree.files.contains place

/-- The directory around a directory. -/
def around (tree : FileTree) (directory : Nat) : Nat :=
  (tree.places.getD directory default).directory

/-- Follows the parts of a path from a directory on. -/
def follow (tree : FileTree) (directory : Nat) : List String → Except FileFault Destination
  | [] => .ok (.directory directory)
  | part :: parts =>
    if Path.isIdle part then
      tree.follow directory parts
    else if part = ".." then
      tree.follow (tree.around directory) parts
    else if parts.all String.isEmpty then
      .ok (.entry ⟨directory, part⟩ (!parts.isEmpty))
    else if nameLimit < part.utf8ByteSize then
      .error .nameTooLong
    else
      match tree.directories[Place.mk directory part]? with
      | some inner => tree.follow inner parts
      | none => .error (if tree.hasFile ⟨directory, part⟩ then .notADirectory else .notFound)

/-- Where a path leads to. -/
def locate (tree : FileTree) (path : String) : Except FileFault Destination :=
  if path.toList.contains '\x00' then
    .error .invalidPath
  else if path.isEmpty then
    .error .notFound
  else if pathLimit < path.utf8ByteSize then
    .error .nameTooLong
  else
    tree.follow (if Path.isAbsolute path then 0 else tree.start) (Path.parts path)

/-! ## Asking -/

/-- What is found at the end of a path. -/
inductive Node where
  /-- A directory. -/
  | directory (number : Nat)
  /-- A file. -/
  | file (content : ByteArray)

/-- What is at the end of a path. A file cannot be found by a path that asks for a directory. -/
def find (tree : FileTree) (path : String) : Except FileFault Node := do
  match ← tree.locate path with
  | .directory number => .ok (.directory number)
  | .entry place asksDirectory =>
    if nameLimit < place.name.utf8ByteSize then
      .error .nameTooLong
    else
      match tree.directories[place]?, tree.content? place with
      | some number, _ => .ok (.directory number)
      | none, some content => if asksDirectory then .error .notADirectory else .ok (.file content)
      | none, none => .error .notFound

/-- The directory that a path leads to. -/
def directory? (tree : FileTree) (path : String) : Option Nat :=
  match tree.find path with
  | .ok (.directory number) => some number
  | _ => none

/-- Whether a path leads to a file. -/
def isFile (tree : FileTree) (path : String) : Bool :=
  match tree.find path with
  | .ok (.file _) => true
  | _ => false

/-- Whether a path leads to a directory. -/
def isDirectory (tree : FileTree) (path : String) : Bool :=
  (tree.directory? path).isSome

/-- The contents of a file. -/
def read (tree : FileTree) (path : String) : Except FileFault ByteArray := do
  match ← tree.find path with
  | .file content => .ok content
  | .directory _ => .error .isADirectory

/-! ## Changing -/

/-- The tree with a file at a place. -/
def put (tree : FileTree) (place : Place) (content : ByteArray) : FileTree :=
  { tree with files := tree.files.insert place content }

/-- The tree with bytes added at the end of the file at a place, which starts empty. -/
def extend (tree : FileTree) (place : Place) (bytes : ByteArray) : FileTree :=
  { tree with
    files := tree.files.alter place fun content? => some (content?.getD .empty ++ bytes) }

/-- Where a file can be written: where there is one, or where there is nothing yet. -/
def writablePlace (tree : FileTree) (path : String) : Except FileFault Place := do
  match ← tree.locate path with
  | .directory _ => .error .isADirectory
  | .entry place asksDirectory =>
    if asksDirectory then .error .isADirectory
    else if nameLimit < place.name.utf8ByteSize then .error .nameTooLong
    else if tree.directories.contains place then .error .isADirectory
    else .ok place

/-- Writes a file, in place of the one that may be there. -/
def write (tree : FileTree) (path : String) (content : ByteArray) :
    Except FileFault FileTree :=
  (tree.writablePlace path).map fun place => tree.put place content

/-- The tree with one more directory. -/
def addDirectory (tree : FileTree) (place : Place) : FileTree :=
  { tree with
    places := tree.places.push place
    directories := tree.directories.insert place tree.places.size }

/-- Creates one directory, in a directory that exists. -/
def createDirectory (tree : FileTree) (path : String) : Except FileFault FileTree := do
  match ← tree.locate path with
  | .directory _ => .error .alreadyExists
  | .entry place _ =>
    if nameLimit < place.name.utf8ByteSize then .error .nameTooLong
    else if tree.directories.contains place || tree.hasFile place then .error .alreadyExists
    else .ok (tree.addDirectory place)

/-- The tree with another directory at which paths start; the same tree, if a path leads to no
directory. -/
def enter (tree : FileTree) (path : String) : FileTree :=
  { tree with start := (tree.directory? path).getD tree.start }

/-! ## Listing -/

/-- The names that lead from a directory to another one within, in front of the names `names`;
nothing if there is no way in at most `levels` steps. -/
def namesBetween? (tree : FileTree) (base : Nat) :
    Nat → Nat → List String → Option (List String)
  | 0, directory, names => if directory = base then some names else none
  | levels + 1, directory, names =>
    if directory = base then some names
    else if directory = 0 then none
    else
      match tree.places[directory]? with
      | some place => tree.namesBetween? base levels place.directory (place.name :: names)
      | none => none

/-- The files in a directory and in the directories within, each by the names that lead to it. -/
def filesBelow (tree : FileTree) (directory : Nat) : List (List String × ByteArray) :=
  tree.files.toList.filterMap fun (place, content) =>
    (tree.namesBetween? directory tree.places.size place.directory [place.name]).map
      fun names => (names, content)

/-! ## Laws -/

/-- A file holds what was put there, and all other files stay. -/
theorem content?_put (tree : FileTree) (p q : Place) (content : ByteArray) :
    (tree.put p content).content? q = if p = q then some content else tree.content? q := by
  simp [content?, put, Std.TreeMap.getElem?_insert]

/-- Putting a file changes no directory. -/
theorem directories_put (tree : FileTree) (p : Place) (content : ByteArray) :
    (tree.put p content).directories = tree.directories := rfl

end FileTree

end TypeInventory
