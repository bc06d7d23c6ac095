import TypeInventory.Text.Hex

set_option relaxedAutoImplicit false
set_option autoImplicit false

/-!
# Structured output

Summaries for other programs are written as JSON, with one item on each line and two blanks for
each level of nesting.

## Main definitions

* `Json` — a value.
* `Json.quote` — a text in quotes.
* `Json.lines` — the lines of a value.
-/

namespace TypeInventory.Text

/-- A value of structured output. -/
inductive Json where
  /-- No value. -/
  | null
  /-- A number. -/
  | number (n : Nat)
  /-- A text. -/
  | text (s : String)
  /-- Values in order. -/
  | list (items : List Json)
  /-- Named values in order. -/
  | object (fields : List (String × Json))
deriving Repr, Inhabited

namespace Json

/-- A character as it is written within quotes: quotes, backslashes and characters below the blank
are escaped. -/
def escape (c : Char) : String :=
  match c with
  | '"' => "\\\""
  | '\\' => "\\\\"
  | '\x08' => "\\b"
  | '\t' => "\\t"
  | '\n' => "\\n"
  | '\x0c' => "\\f"
  | '\x0d' => "\\r"
  | c => if c.val < 0x20 then "\\u" ++ hexPadded 4 c.toNat else c.toString

/-- A text in quotes. -/
def quote (s : String) : String :=
  "\"" ++ String.join (s.toList.map escape) ++ "\""

/-- Puts a text in front of the first line. -/
def before (s : String) : List String → List String
  | [] => [s]
  | line :: lines => (s ++ line) :: lines

/-- Puts a text behind the last line. -/
def behind (s : String) : List String → List String
  | [] => [s]
  | [line] => [line ++ s]
  | line :: lines => line :: behind s lines

/-- The lines of items that are enclosed, separated by commas and indented. -/
def enclose (opening closing : String) (items : List (List String)) : List String :=
  match items with
  | [] => [opening ++ closing]
  | _ =>
    let separated := items.dropLast.map (behind ",") ++ items.getLast?.toList
    [opening] ++ separated.flatten.map ("  " ++ ·) ++ [closing]

mutual

/-- The lines of a value. -/
def lines : Json → List String
  | .null => ["null"]
  | .number n => [toString n]
  | .text s => [quote s]
  | .list items => enclose "[" "]" (linesOfItems items)
  | .object fields => enclose "\x7b" "\x7d" (linesOfFields fields)

/-- The lines of each of some values. -/
def linesOfItems : List Json → List (List String)
  | [] => []
  | item :: items => item.lines :: linesOfItems items

/-- The lines of each of some named values. -/
def linesOfFields : List (String × Json) → List (List String)
  | [] => []
  | (name, value) :: fields => before (quote name ++ ": ") value.lines :: linesOfFields fields

end

end Json

end TypeInventory.Text
