import TypeInventory.File.Path
import TypeInventory.Page

set_option relaxedAutoImplicit false
set_option autoImplicit false

/-!
# File names of pages

A page is written into a file that is named after its type. Characters that file names must not
hold are replaced, so that the file always lies in the directory of the output itself.

## Main definitions

* `isAllowed`, `fileName` — the characters of file names, and the file name for a name.
* `Page.path` — where a page is written.
-/

namespace TypeInventory

/-- Whether a character is a control character. -/
def isControl (c : Char) : Bool :=
  c.val < 0x20 || (0x7F ≤ c.val && c.val < 0xA0)

/-- The characters that file names do not hold, control characters apart. -/
def refusedCharacters : List Char :=
  ['"', '<', '>', '|', ':', '*', '?', '\\', '/', ',', '\x60']

/-- Whether file names may hold a character. -/
def isAllowed (c : Char) : Bool :=
  !isControl c && !refusedCharacters.contains c

/-- The character that stands for those that are not allowed. -/
def substitute : Char := '_'

/-- A character, or the substitute for it. -/
def allowed (c : Char) : Char :=
  if isAllowed c then c else substitute

/-- The file name for a name, without its ending. -/
def fileName (name : String) : String :=
  String.ofList (name.toList.map allowed)

/-- The ending of the file names of pages. -/
def pageEnding : String := ".txt"

/-- Where a page is written in a directory. -/
def Page.path (directory : String) (p : Page) : String :=
  Path.join directory (fileName p.name ++ pageEnding)

/-! ## Laws -/

theorem isAllowed_substitute : isAllowed substitute = true := by decide

theorem isAllowed_allowed (c : Char) : isAllowed (allowed c) = true := by
  by_cases h : isAllowed c = true
  · simp [allowed, h]
  · simp [allowed, h, isAllowed_substitute]

/-- A character that is allowed stays as it is. -/
theorem allowed_of_isAllowed {c : Char} (h : isAllowed c = true) : allowed c = c := by
  simp [allowed, h]

theorem toList_fileName (name : String) : (fileName name).toList = name.toList.map allowed := by
  simp [fileName]

end TypeInventory
