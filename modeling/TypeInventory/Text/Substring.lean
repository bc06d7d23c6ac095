set_option relaxedAutoImplicit false
set_option autoImplicit false

/-!
# Parts of a text

## Main definitions

* `Text.startsWith`, `Text.contains` — whether one text starts with, or holds, another.
* `Text.afterPrefix?`, `Text.beforeSuffix?` — a text without a given beginning or end.

## Main results

* `Text.contains_iff` — whether a text holds another, in terms of the order of lists by infixes.
-/

namespace TypeInventory.Text

/-- Whether the characters `p` occur one after another somewhere in `s`. -/
def occursIn (p : List Char) : List Char → Bool
  | [] => p.isEmpty
  | c :: s => p.isPrefixOf (c :: s) || occursIn p s

/-- Whether `s` starts with `p`. -/
def startsWith (s p : String) : Bool :=
  p.toList.isPrefixOf s.toList

/-- Whether `p` occurs somewhere in `s`. Every text holds the empty one. -/
def contains (s p : String) : Bool :=
  occursIn p.toList s.toList

/-- Whether `s` holds the character `c`. -/
def holds (s : String) (c : Char) : Bool :=
  s.toList.contains c

/-- What follows the beginning `p` of `s`, if `s` starts with `p`. -/
def afterPrefix? (s p : String) : Option String :=
  if startsWith s p then some (String.ofList (s.toList.drop p.toList.length)) else none

/-- What precedes the end `p` of `s`, if `s` ends with `p`. -/
def beforeSuffix? (s p : String) : Option String :=
  if p.toList.isSuffixOf s.toList then
    some (String.ofList (s.toList.take (s.toList.length - p.toList.length)))
  else
    none

theorem occursIn_iff {p s : List Char} : occursIn p s = true ↔ p <:+: s := by
  induction s with
  | nil => simp [occursIn]
  | cons c s ih => simp [occursIn, ih, List.infix_cons_iff]

theorem contains_iff {s p : String} : contains s p = true ↔ p.toList <:+: s.toList :=
  occursIn_iff

end TypeInventory.Text
