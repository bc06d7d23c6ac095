set_option relaxedAutoImplicit false
set_option autoImplicit false

/-!
# Control sequences

A text may hold control characters, and sequences of characters that command a terminal: to
change a colour, to move the cursor, to set a title. Where a text is to be read and not to be
obeyed, both are left out. White space that lays out a text stays.

A control sequence starts with an escape character. White space inside a sequence is shown, and so
is the text behind it, up to the next control character, with which the sequence goes on.

## Main definitions

* `Text.ControlState` — how far a control sequence has come, and how a character takes it on.
* `Text.withoutControls` — what is left of a text.
-/

namespace TypeInventory.Text

/-! ## Characters -/

/-- White space that lays out a text: tabulators, line ends and page ends. -/
def isLayout (c : Char) : Bool :=
  c == '\t' || c == '\n' || c == '\x0c' || c == '\r'

/-- Whether a character is shown: it lays out a text, or it is no control character of ASCII. -/
def isVisible (c : Char) : Bool :=
  isLayout c || (0x20 ≤ c.toNat && c.toNat != 0x7F)

/-- Whether a character lies in a closed range of code points. -/
def isWithin (low high : Nat) (c : Char) : Bool :=
  low ≤ c.toNat && c.toNat ≤ high

/-- Whether the last byte that ends a string of controls, 9C, is among the bytes that continue a
character in UTF-8. -/
def hasTerminatorByte (c : Char) : Bool :=
  0x80 ≤ c.toNat
    && (c.toNat % 64 == 0x1C || (0x800 ≤ c.toNat && c.toNat / 64 % 64 == 0x1C)
      || (0x10000 ≤ c.toNat && c.toNat / 4096 % 64 == 0x1C))

/-! ## States -/

/-- How far a control sequence has come. -/
inductive ControlState where
  /-- There is none. -/
  | outside
  /-- After the escape character. -/
  | escape
  /-- After characters that choose among the short sequences. -/
  | escapeTail
  /-- Among the parameters of a sequence that a letter ends. -/
  | parameters
  /-- At the start of a string for the device. -/
  | deviceHead
  /-- Among the parameters of a string for the device. -/
  | deviceParameters
  /-- After the parameters of a string for the device. -/
  | deviceTail
  /-- In a string. -/
  | string
  /-- In a command for the system of the terminal. -/
  | systemCommand
deriving DecidableEq, Repr

namespace ControlState

/-- The state after the character behind the escape character. -/
def afterEscape (c : Char) : ControlState :=
  if isWithin 0x20 0x2F c then .escapeTail
  else if c = '[' then .parameters
  else if c = ']' then .systemCommand
  else if c = 'P' then .deviceHead
  else if c = 'X' || c = '^' || c = '_' then .string
  else if isWithin 0x30 0x7E c then .outside
  else .escape

/-- The state after a character. An escape character starts a sequence anywhere, and two of the
control characters end any. -/
def next (state : ControlState) (c : Char) : ControlState :=
  if c = '\x1b' then .escape
  else if c = '\x18' || c = '\x1a' then .outside
  else
    match state with
    | .outside => .outside
    | .escape => afterEscape c
    | .escapeTail => if isWithin 0x30 0x7E c then .outside else .escapeTail
    | .parameters => if isWithin 0x40 0x7E c then .outside else .parameters
    | .deviceHead =>
      if isWithin 0x20 0x2F c then .deviceTail
      else if isWithin 0x30 0x3F c then .deviceParameters
      else if isWithin 0x40 0x7E c then .string
      else .deviceHead
    | .deviceParameters =>
      if isWithin 0x20 0x2F c then .deviceTail
      else if isWithin 0x3C 0x3F c || isWithin 0x40 0x7E c then .string
      else .deviceParameters
    | .deviceTail => if isWithin 0x30 0x7E c then .string else .deviceTail
    | .string => if hasTerminatorByte c then .outside else .string
    | .systemCommand => if c = '\x07' then .outside else .systemCommand

/-- Whether a character is shown in a state. -/
def shows (state : ControlState) (c : Char) : Bool :=
  match state with
  | .outside => isVisible c
  | .escape | .escapeTail | .parameters => isLayout c
  | .deviceHead | .deviceParameters | .deviceTail | .string | .systemCommand => false

end ControlState

/-! ## Texts -/

/-- The characters that are shown of those that follow a state, in front of which the characters
`kept` (last one first) have been shown already. When a sequence is `suspended`, text is shown until
a control character takes it up again; a character beyond ASCII ends it. -/
def visibleInto (kept : List Char) (state : ControlState) (suspended : Bool) :
    List Char → List Char
  | [] => kept.reverse
  | c :: cs =>
    if (suspended && isVisible c) || state.shows c then
      visibleInto (c :: kept) (if c.toNat < 0x80 then state else .outside) true cs
    else
      visibleInto kept (state.next c) false cs

/-- A text without control characters and control sequences. -/
def withoutControls (s : String) : String :=
  String.ofList (visibleInto [] .outside false s.toList)

end TypeInventory.Text
