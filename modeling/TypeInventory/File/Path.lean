set_option relaxedAutoImplicit false
set_option autoImplicit false

/-!
# Paths

A path is a text whose parts are separated by slashes; with a slash in front it starts at the
root. Empty parts and single dots change nothing, except that a path may start with a dot.

## Main definitions

* `Path.parts`, `Path.ofParts` — the parts of a path.
* `Path.join` — a path behind another one.
* `Path.parent?`, `Path.name?`, `Path.stem?` — a path without its last part, and the last part
  with and without its ending.

## Main results

* `Path.splitParts_cons`, `Path.splitParts_of_notMem` — how a text is split, character by character,
  and a text without slashes.
-/

namespace TypeInventory.Path

/-! ## Parts -/

/-- Adds a character in front of parts: a slash starts a new part, any other character belongs to
the first one. -/
def addToParts (c : Char) (parts : List (List Char)) : List (List Char) :=
  if c = '/' then
    [] :: parts
  else
    match parts with
    | [] => [[c]]
    | part :: parts => (c :: part) :: parts

/-- Splits a text at every slash. -/
def splitParts (cs : List Char) : List (List Char) :=
  cs.foldr addToParts [[]]

/-- Joins parts with a slash between two of them. -/
def joinParts : List (List Char) → List Char
  | [] => []
  | [part] => part
  | part :: part' :: parts => part ++ '/' :: joinParts (part' :: parts)

/-- The parts of a path, empty ones included. The first one is empty when the path starts at the
root. -/
def parts (path : String) : List String :=
  (splitParts path.toList).map String.ofList

/-- The path with the given parts. -/
def ofParts (ps : List String) : String :=
  String.ofList (joinParts (ps.map String.toList))

/-- Whether a path starts at the root. -/
def isAbsolute (path : String) : Bool :=
  path.toList.head? == some '/'

/-- Whether a part changes nothing where it stands. -/
def isIdle (part : String) : Bool :=
  part.isEmpty || part == "."

/-! ## Joining -/

/-- The path `path` as seen from `base`; `base` is of no account if `path` starts at the root. -/
def join (base path : String) : String :=
  if isAbsolute path || base.isEmpty then path
  else if base.toList.getLast? == some '/' then base ++ path
  else base ++ "/" ++ path

/-! ## The last part -/

/-- Drops idle parts from the end, the first part excepted. -/
def trimParts : List String → List String
  | [] => []
  | first :: rest => first :: (rest.reverse.dropWhile isIdle).reverse

/-- The path with the given parts; the root, if there is an empty part only. -/
def ofTrimmed (ps : List String) : String :=
  if ps == [""] then "/" else ofParts ps

/-- A path without its last part; nothing for the root and for the empty path. -/
def parent? (path : String) : Option String :=
  match trimParts (parts path) with
  | [] => none
  | [""] => none
  | [_] => some ""
  | ps => some (ofTrimmed (trimParts ps.dropLast))

/-- The last part of a path, unless it is the root or leads upwards. -/
def name? (path : String) : Option String :=
  (trimParts (parts path)).getLast?.filter fun part => !isIdle part && part != ".."

/-- A name without its ending: what stands before the last dot, or all of it if that is nothing or
if there is no dot. -/
def withoutEnding (name : String) : String :=
  match (name.toList.reverse.dropWhile (· != '.')).tail.reverse with
  | [] => name
  | stem => String.ofList stem

/-- The last part of a path without its ending. -/
def stem? (path : String) : Option String :=
  (name? path).map withoutEnding

/-! ## Laws -/

theorem splitParts_cons (c : Char) (cs : List Char) :
    splitParts (c :: cs) = addToParts c (splitParts cs) := rfl

/-- A text without slashes is one part. -/
theorem splitParts_of_notMem (part : List Char) (h : '/' ∉ part) : splitParts part = [part] := by
  induction part with
  | nil => rfl
  | cons c part ih =>
    simp only [List.mem_cons, not_or] at h
    rw [splitParts_cons, ih h.2]
    simp [addToParts, Ne.symm h.1]

end TypeInventory.Path
