import TypeInventory.Descriptor.Text
import TypeInventory.Diagnostic
import TypeInventory.Selection

set_option relaxedAutoImplicit false
set_option autoImplicit false

/-!
# Pages

A page tells about one type: its full name, its token, and one line for each method and each
field of interest. A type without such lines has no page.

## Main definitions

* `Page`, `Page.text` — a page and the contents of its file.
* `Page.ofType` — the page of a type; `Page.ofType?` — the same unless it is empty.
* `Page.log` — the lines of the log that tell about a page.
-/

namespace TypeInventory

/-- What is reported about one type. -/
structure Page where
  /-- The simple name of the type, after which the file is named. -/
  name : String := ""
  /-- The full name of the type. -/
  fullName : String := ""
  /-- The token of the type. -/
  token : Token := ⟨0⟩
  /-- One line for each method. -/
  methodLines : List String := []
  /-- One line for each field. -/
  fieldLines : List String := []
deriving DecidableEq, Repr, Inhabited

namespace Page

/-- Whether a page has no lines. -/
def isEmpty (p : Page) : Bool :=
  p.methodLines.isEmpty && p.fieldLines.isEmpty

/-- A line with its end. -/
def terminated (line : String) : String :=
  line ++ "\n"

/-- The lines of a page: a head with full name and token, then the methods and the fields, each
under a title of its own. -/
def lines (p : Page) : List String :=
  ["Class: " ++ p.fullName, "Token: " ++ p.token.reportText, "", "Methods:", "======="]
    ++ p.methodLines ++ ["", "Fields:", "====="] ++ p.fieldLines

/-- The contents of the file of a page. -/
def text (p : Page) : String :=
  String.join (p.lines.map terminated)

/-- The end of a line about a member: its token. -/
def tokenNote (token : Token) : String :=
  ", Token: " ++ token.reportText

/-- The line of a method. -/
def methodLine (m : MethodInfo) : String :=
  "Method: " ++ m.text ++ tokenNote m.token

/-- The line of a field. -/
def fieldLine (f : FieldInfo) : String :=
  f.text ++ tokenNote f.token

/-- The page of a type, with the members of interest in the order of declaration. -/
def ofType (filters : Filters) (t : TypeInfo) : Page where
  name := t.name
  fullName := t.fullName
  token := t.token
  methodLines := (t.methods.filter filters.acceptsMethod).map methodLine
  fieldLines := (t.fields.filter acceptsField).map fieldLine

/-- The page of a type, if it has any line. -/
def ofType? (filters : Filters) (t : TypeInfo) : Option Page :=
  let page := ofType filters t
  if page.isEmpty then none else some page

/-- Every line of a page is told in the log, methods first. -/
def log (p : Page) : List LogEntry :=
  (p.methodLines ++ p.fieldLines).map (LogEntry.mk .info)

end Page

end TypeInventory
