import Mathlib
import TypeInventory.Descriptor.Text

set_option relaxedAutoImplicit false
set_option autoImplicit false

/-!
# Types by their texts

The text of a type says what it shows of the type and nothing else: references to variables are left
out, built-in types and others are told by the same words, and generic types have no arity. Where
the words of a type are free of the characters that join them, what a text shows can be read back
from it, character by character and with no look ahead: brackets open and close instantiations, and
everything else is behind what it belongs to.

## Main definitions

* `TypeName.shown` — what the text of a type shows of it.
* `IsWord`, `TypeName.IsClean` — words that cannot be mistaken for what joins them, and types made
  of them.
* `TypeScan`, `TypeScan.step` — what has been read of a text, and how one more character adds to it.
* `TypeName.ofText?` — the type that a text shows.

## Main results

* `TypeName.text_shown` — a type and what is shown of it have the same text.
* `TypeName.IsClean.foldl_step_text` — reading the text of a type, within any open brackets.
* `TypeName.IsClean.ofText?_text` — what a text shows is read back from it.
* `TypeName.text_eq_iff_shown_eq` — types have the same text exactly when they show the same.
-/

namespace TypeInventory

/-! ## What a text shows -/

namespace TypeName

mutual

/-- What the text of a type shows: no references to variables, built-in types by their texts, and
generic types without their arity. -/
def shown : TypeName → TypeName
  | .primitive name => .plain (primitiveText name)
  | .array element => .array element.shown
  | .byRef element => element.shown
  | .nullable element => .nullable element.shown
  | .generic base args => .generic (withoutArity base) (shownOfList args)
  | .nested enclosing name => .nested enclosing.shown name
  | .plain name => .plain name

/-- What the texts of several types show. -/
def shownOfList : List TypeName → List TypeName
  | [] => []
  | t :: ts => t.shown :: shownOfList ts

end

end TypeName

/-- A name has at most one arity to take away. -/
lemma withoutArity_withoutArity (name : String) :
    withoutArity (withoutArity name) = withoutArity name := by
  cases h : name.toList.takeWhile (· != arityMark) with
  | nil =>
    have hname : withoutArity name = name := by rw [withoutArity, h]
    rw [hname, hname]
  | cons c cs =>
    have hname : withoutArity name = String.ofList (c :: cs) := by rw [withoutArity, h]
    have hagain : (c :: cs).takeWhile (· != arityMark) = c :: cs := by
      rw [← h, List.takeWhile_idem]
    rw [hname, withoutArity, String.toList_ofList, hagain]

namespace TypeName

mutual

/-- A type and what is shown of it have the same text. -/
lemma text_shown : (t : TypeName) → t.shown.text = t.text
  | .primitive name => by rw [shown, text, text]
  | .array element => by rw [shown, text, text, text_shown element]
  | .byRef element => by rw [shown, text, text_shown element]
  | .nullable element => by rw [shown, text, text, text_shown element]
  | .generic base args => by
    rw [shown, text, text, withoutArity_withoutArity, texts_shownOfList args]
  | .nested enclosing name => by rw [shown, text, text, text_shown enclosing]
  | .plain name => by rw [shown]

/-- Types and what is shown of them have the same texts. -/
lemma texts_shownOfList : (ts : List TypeName) → texts (shownOfList ts) = texts ts
  | [] => rfl
  | t :: ts => by rw [shownOfList, texts, texts, text_shown t, texts_shownOfList ts]

end

end TypeName

/-! ## Clean types -/

/-- The characters that join words in the text of a type. -/
def joiningChars : List Char :=
  ['<', '>', '[', ']', '?', '.', ',', ' ']

/-- A word that cannot be mistaken for what joins it with others. -/
def IsWord (s : String) : Prop :=
  s ≠ "" ∧ ∀ c ∈ s.toList, c ∉ joiningChars

instance (s : String) : Decidable (IsWord s) :=
  decidable_of_iff (s ≠ "" ∧ s.toList.all (fun c => decide (c ∉ joiningChars)) = true)
    (by simp [IsWord])

/-- The types whose text is made of words: the texts of built-in and other types, the names of
generic types without their arity, and the names of nested types. -/
inductive TypeName.IsClean : TypeName → Prop
  | primitive {name : String} (hname : IsWord (primitiveText name)) : IsClean (.primitive name)
  | array {element : TypeName} (helement : IsClean element) : IsClean (.array element)
  | byRef {element : TypeName} (helement : IsClean element) : IsClean (.byRef element)
  | nullable {element : TypeName} (helement : IsClean element) : IsClean (.nullable element)
  | generic {base : String} {args : List TypeName} (hbase : IsWord (withoutArity base))
    (hargs : ∀ arg ∈ args, IsClean arg) : IsClean (.generic base args)
  | nested {enclosing : TypeName} {name : String} (henclosing : IsClean enclosing)
    (hname : IsWord name) : IsClean (.nested enclosing name)
  | plain {name : String} (hname : IsWord name) : IsClean (.plain name)

/-! ## Reading a text -/

/-- What has been read of a type. -/
inductive TypePart where
  /-- The letters of a word with which the type starts. -/
  | word (letters : List Char)
  /-- A type behind which no letter can stand. -/
  | whole (type : TypeName)
  /-- A type with a point behind it, and the letters of the word that follows. -/
  | member (enclosing : TypeName) (letters : List Char)

namespace TypePart

/-- The type that has been read, unless nothing has. -/
def type? : TypePart → Option TypeName
  | word [] => none
  | word letters => some (.plain (String.ofList letters))
  | whole type => some type
  | member enclosing letters => some (.nested enclosing (String.ofList letters))

/-- The letters of a type that so far is a word. -/
def letters : TypePart → List Char
  | word letters => letters
  | whole _ | member _ _ => []

/-- More letters. Behind a type where no letter can stand they are not kept. -/
def put (more : List Char) : TypePart → TypePart
  | word letters => word (letters ++ more)
  | whole type => whole type
  | member enclosing letters => member enclosing (letters ++ more)

/-- Goes on with the type that has been read, unless nothing has. -/
def goOn (next : TypeName → TypePart) (part : TypePart) : TypePart :=
  (part.type?.map next).getD part

/-- What has been read when the text of a type has been. -/
def ofType : TypeName → TypePart
  | .plain name => word name.toList
  | .nested enclosing name => member enclosing name.toList
  | type => whole type

/-- Letters are put one after another. -/
lemma put_put (first second : List Char) (part : TypePart) :
    (part.put first).put second = part.put (first ++ second) := by
  cases part <;> simp [put]

lemma put_nil (part : TypePart) : part.put [] = part := by
  cases part <;> simp [put]

/-- A word with letters is a type. -/
lemma type?_word {name : String} (h : name ≠ "") :
    (word name.toList).type? = some (.plain name) := by
  cases hletters : name.toList with
  | nil => exact absurd (String.toList_eq_nil_iff.mp hletters) h
  | cons c cs => rw [type?, ← hletters, String.ofList_toList]; simp

end TypePart

/-- What has been read of a text: the instantiations that are open, innermost first, each with the
letters of its generic type and the arguments so far, and the type that is being read. -/
structure TypeScan where
  /-- The open instantiations. -/
  opened : List (List Char × List TypeName)
  /-- The type that is being read. -/
  part : TypePart

namespace TypeScan

/-- What one more character adds. An opening square bracket and the blank behind a comma add
nothing, since the closing bracket and the comma say it all. -/
def step (s : TypeScan) (c : Char) : TypeScan :=
  if c = '<' then
    ⟨(s.part.letters, []) :: s.opened, .word []⟩
  else if c = '>' then
    match s.opened with
    | (base, args) :: opened =>
      ⟨opened, .whole (.generic (String.ofList base) (args ++ s.part.type?.toList))⟩
    | [] => s
  else if c = ',' then
    match s.opened with
    | (base, args) :: opened => ⟨(base, args ++ s.part.type?.toList) :: opened, .word []⟩
    | [] => s
  else if c = ']' then
    ⟨s.opened, s.part.goOn fun t => .whole (.array t)⟩
  else if c = '?' then
    ⟨s.opened, s.part.goOn fun t => .whole (.nullable t)⟩
  else if c = '.' then
    ⟨s.opened, s.part.goOn fun t => .member t []⟩
  else if c = '[' ∨ c = ' ' then
    s
  else
    ⟨s.opened, s.part.put [c]⟩

section Steps

variable (opened : List (List Char × List TypeName))

/-- A letter goes to the word that is being read. -/
lemma step_of_notMem {c : Char} (h : c ∉ joiningChars) (part : TypePart) :
    step ⟨opened, part⟩ c = ⟨opened, part.put [c]⟩ := by
  simp only [joiningChars, List.mem_cons, List.not_mem_nil, or_false, not_or] at h
  obtain ⟨hopen, hclose, hleft, hright, hnullable, hpoint, hcomma, hblank⟩ := h
  unfold step
  rw [if_neg hopen, if_neg hclose, if_neg hcomma, if_neg hright, if_neg hnullable, if_neg hpoint,
    if_neg (by simp [hleft, hblank])]

/-- So do all letters of a word. -/
lemma foldl_step_letters {letters : List Char} (h : ∀ c ∈ letters, c ∉ joiningChars)
    (part : TypePart) : letters.foldl step ⟨opened, part⟩ = ⟨opened, part.put letters⟩ := by
  induction letters generalizing part with
  | nil => rw [List.foldl_nil, part.put_nil]
  | cons c cs ih =>
    rw [List.foldl_cons, step_of_notMem opened (h c List.mem_cons_self),
      ih (fun d hd => h d (List.mem_cons_of_mem c hd)), part.put_put, List.singleton_append]

/-- What stands behind a type goes on with it. -/
lemma goOn_ofType {t : TypeName} (h : (TypePart.ofType t).type? = some t)
    (next : TypeName → TypePart) : (TypePart.ofType t).goOn next = next t := by
  rw [TypePart.goOn, h, Option.map_some, Option.getD_some]

variable {t : TypeName} (h : (TypePart.ofType t).type? = some t)

include h in
/-- Two square brackets behind a type make it an array. -/
lemma foldl_step_brackets :
    "[]".toList.foldl step ⟨opened, .ofType t⟩ = ⟨opened, .ofType (.array t)⟩ :=
  congrArg (TypeScan.mk opened) (goOn_ofType h _)

include h in
/-- A question mark behind a type makes it nullable. -/
lemma foldl_step_questionMark :
    "?".toList.foldl step ⟨opened, .ofType t⟩ = ⟨opened, .ofType (.nullable t)⟩ :=
  congrArg (TypeScan.mk opened) (goOn_ofType h _)

include h in
/-- A point behind a type goes on with a nested one. -/
lemma foldl_step_point :
    ".".toList.foldl step ⟨opened, .ofType t⟩ = ⟨opened, .member t []⟩ :=
  congrArg (TypeScan.mk opened) (goOn_ofType h _)

/-- An opening angle bracket behind a word starts its arguments. -/
lemma foldl_step_open (letters : List Char) :
    "<".toList.foldl step ⟨opened, .word letters⟩ = ⟨(letters, []) :: opened, .word []⟩ :=
  rfl

variable (base : List Char) (args : List TypeName)

include h in
/-- A comma and a blank end an argument. -/
lemma foldl_step_comma :
    ", ".toList.foldl step ⟨(base, args) :: opened, .ofType t⟩ =
      ⟨(base, args ++ [t]) :: opened, .word []⟩ := by
  change (⟨(base, args ++ (TypePart.ofType t).type?.toList) :: opened, .word []⟩ : TypeScan) = _
  rw [h, Option.toList_some]

include h in
/-- A closing angle bracket behind a type ends the last argument and the instantiation. -/
lemma foldl_step_close :
    ">".toList.foldl step ⟨(base, args) :: opened, .ofType t⟩ =
      ⟨opened, .ofType (.generic (String.ofList base) (args ++ [t]))⟩ := by
  change (⟨opened, .whole (.generic _ (args ++ (TypePart.ofType t).type?.toList))⟩ : TypeScan) = _
  rw [h, Option.toList_some]
  rfl

/-- A closing angle bracket right behind the opening one ends an instantiation without arguments. -/
lemma foldl_step_close_empty :
    ">".toList.foldl step ⟨(base, args) :: opened, .word []⟩ =
      ⟨opened, .ofType (.generic (String.ofList base) args)⟩ := by
  change (⟨opened, .whole (.generic _ (args ++ []))⟩ : TypeScan) = _
  rw [List.append_nil]
  rfl

end Steps

end TypeScan

namespace TypeName

open TypeScan

/-- The type that a text shows. -/
def ofText? (text : String) : Option TypeName :=
  (text.toList.foldl step ⟨[], .word []⟩).part.type?

namespace IsClean

/-- What has been read of a clean type is this type. -/
lemma type?_ofType_shown {t : TypeName} (h : t.IsClean) :
    (TypePart.ofType t.shown).type? = some t.shown := by
  induction h with
  | primitive hname =>
    rw [shown]
    exact TypePart.type?_word hname.1
  | plain hname =>
    rw [shown]
    exact TypePart.type?_word hname.1
  | byRef _ ih =>
    rw [shown]
    exact ih
  | array | nullable | generic =>
    rw [shown]
    rfl
  | nested _ _ _ => rw [shown, TypePart.ofType, TypePart.type?, String.ofList_toList]

/-- Reading the arguments of an instantiation, and the bracket behind them.

**Proof sketch.** By induction on the arguments: a comma stands behind each but the last. -/
lemma foldl_step_texts {args : List TypeName} (hargs : ∀ arg ∈ args, arg.IsClean)
    (hread : ∀ arg ∈ args, ∀ opened, arg.text.toList.foldl step ⟨opened, .word []⟩ =
      ⟨opened, .ofType arg.shown⟩)
    (opened : List (List Char × List TypeName)) (base : List Char) (before : List TypeName) :
    ((", ".intercalate (texts args)) ++ ">").toList.foldl step
        ⟨(base, before) :: opened, .word []⟩ =
      ⟨opened, .ofType (.generic (String.ofList base) (before ++ shownOfList args))⟩ := by
  induction args generalizing before with
  | nil =>
    rw [texts, String.intercalate_nil, String.empty_append, shownOfList, List.append_nil]
    exact foldl_step_close_empty opened base before
  | cons arg args ih =>
    have harg := (hargs arg List.mem_cons_self).type?_ofType_shown
    rw [texts, shownOfList]
    cases args with
    | nil =>
      rw [texts, String.intercalate_singleton, String.toList_append, List.foldl_append,
        hread arg List.mem_cons_self, shownOfList]
      exact foldl_step_close opened harg base before
    | cons next args =>
      have hrest := ih (fun x hx => hargs x (List.mem_cons_of_mem arg hx))
        (fun x hx => hread x (List.mem_cons_of_mem arg hx)) (before ++ [arg.shown])
      rw [texts] at hrest ⊢
      rw [String.intercalate_cons_cons, String.append_assoc, String.append_assoc,
        String.toList_append, List.foldl_append, hread arg List.mem_cons_self,
        String.toList_append, List.foldl_append, foldl_step_comma opened harg, hrest,
        List.append_assoc, List.singleton_append]

/-- **Reading the text of a clean type**, within any open instantiations, gives what is shown of the
type and leaves the instantiations as they are.

**Proof sketch.** By induction on the type. A word is read letter by letter, and whatever stands
behind a type or between arguments goes on with what has been read. -/
lemma foldl_step_text {t : TypeName} (h : t.IsClean)
    (opened : List (List Char × List TypeName)) :
    t.text.toList.foldl step ⟨opened, .word []⟩ = ⟨opened, .ofType t.shown⟩ := by
  induction h generalizing opened with
  | primitive hname =>
    rw [text, shown]
    exact foldl_step_letters opened hname.2 (.word [])
  | plain hname =>
    rw [text, shown]
    exact foldl_step_letters opened hname.2 (.word [])
  | byRef _ ih =>
    rw [text, shown]
    exact ih opened
  | array helement ih =>
    rw [text, shown, String.toList_append, List.foldl_append, ih]
    exact foldl_step_brackets opened helement.type?_ofType_shown
  | nullable helement ih =>
    rw [text, shown, String.toList_append, List.foldl_append, ih]
    exact foldl_step_questionMark opened helement.type?_ofType_shown
  | nested henclosing hname ih =>
    rw [text, shown, String.append_assoc, String.toList_append, List.foldl_append, ih,
      String.toList_append, List.foldl_append,
      foldl_step_point opened henclosing.type?_ofType_shown]
    exact foldl_step_letters opened hname.2 (.member _ [])
  | @generic base args hbase hargs ih =>
    have hword := foldl_step_letters opened hbase.2 (.word [])
    have hread := foldl_step_texts hargs ih opened (withoutArity base).toList []
    rw [text, shown, String.append_assoc, String.append_assoc, String.toList_append,
      List.foldl_append, hword, TypePart.put, List.nil_append, String.toList_append,
      List.foldl_append, foldl_step_open, hread, String.ofList_toList, List.nil_append]

/-- **What the text of a clean type shows** is read back from it. -/
lemma ofText?_text {t : TypeName} (h : t.IsClean) : ofText? t.text = some t.shown := by
  rw [ofText?, h.foldl_step_text]
  exact h.type?_ofType_shown

end IsClean

/-- **Texts of types are unambiguous.** Two types whose words cannot be mistaken for what joins them
have the same text exactly when they are the same but for references to variables, built-in types
told by the words of others, and arities.

**Proof sketch.** What a text shows is read back from it (`IsClean.ofText?_text`), so that types of
the same text show the same; and a type has the text of what is shown of it (`text_shown`). -/
theorem text_eq_iff_shown_eq {t u : TypeName} (ht : t.IsClean) (hu : u.IsClean) :
    t.text = u.text ↔ t.shown = u.shown := by
  constructor
  · intro htext
    have hread := ht.ofText?_text
    rw [htext, hu.ofText?_text] at hread
    exact (Option.some.inj hread).symm
  · intro hshown
    rw [← t.text_shown, hshown, u.text_shown]

/-- A dictionary from numbers to arrays of references to nested types, as a module names it. -/
def itemsByNumber : TypeName :=
  .generic "Dictionary`2"
    [.primitive "System.Int32", .array (.byRef (.nested (.plain "Bag") "Item"))]

/-- The same dictionary without the reference, by the words of its text. -/
def itemsByInt : TypeName :=
  .generic "Dictionary" [.plain "int", .array (.nested (.plain "Bag") "Item")]

/-- Both dictionaries are written as `Dictionary<int, Bag.Item[]>`. -/
theorem text_eq_iff_shown_eq_dictionaries :
    itemsByNumber.IsClean ∧ itemsByInt.IsClean ∧
      itemsByNumber.text = itemsByInt.text ∧ itemsByNumber.shown = itemsByInt.shown := by
  have hnumber : itemsByNumber.IsClean := by
    refine .generic (by decide +kernel) ?_
    rw [List.forall_mem_cons, List.forall_mem_singleton]
    exact ⟨.primitive (by decide +kernel),
      .array (.byRef (.nested (.plain (by decide +kernel)) (by decide +kernel)))⟩
  have hint : itemsByInt.IsClean := by
    refine .generic (by decide +kernel) ?_
    rw [List.forall_mem_cons, List.forall_mem_singleton]
    exact ⟨.plain (by decide +kernel),
      .array (.nested (.plain (by decide +kernel)) (by decide +kernel))⟩
  have htext : itemsByNumber.text = itemsByInt.text := by decide +kernel
  exact ⟨hnumber, hint, htext, (text_eq_iff_shown_eq hnumber hint).mp htext⟩

end TypeName

end TypeInventory
