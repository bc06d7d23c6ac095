import TypeInventory.Descriptor
import TypeInventory.Text.Blank
import TypeInventory.Text.Substring

set_option relaxedAutoImplicit false
set_option autoImplicit false

/-!
# Selection

Which types and members of a module are of interest. Code of frameworks and code made by a
compiler is left out, and so are members that only implement a property or an event. A user may
ask for types and for methods by a part of their name.

## Main definitions

* `Filters` — the parts of names that a user asks for; blank ones ask for nothing.
* `Filters.acceptsType`, `Filters.acceptsMethod`, `acceptsField` — what is of interest.
-/

namespace TypeInventory

/-! ## Filters -/

/-- The parts of names that a user asks for. -/
structure Filters where
  /-- A part of the simple or the full name of a type. -/
  typeName : Option String := none
  /-- A part of the name of a method. -/
  methodName : Option String := none
deriving DecidableEq, Repr, Inhabited

namespace Filters

/-- A text that is not blank; a blank one counts as absent. -/
def nonBlank (s : Option String) : Option String :=
  s.filter fun s => !Text.isBlank s

/-- Filters from what a user typed, without blank parts. The others are kept as typed. -/
def ofInput (typeName methodName : Option String) : Filters :=
  ⟨nonBlank typeName, nonBlank methodName⟩

/-- The part of a type's name that is asked for. -/
def typeName? (f : Filters) : Option String :=
  nonBlank f.typeName

/-- The part of a method's name that is asked for. -/
def methodName? (f : Filters) : Option String :=
  nonBlank f.methodName

end Filters

/-! ## Types -/

/-- The beginnings of full names that mark code of frameworks. -/
def frameworkPrefixes : List String :=
  ["System.", "Microsoft.", "UnityEngine.", "Unity.", "TMPro.", "Mono.", "AOT.", "JetBrains."]

/-- Whether a type belongs to a framework, by the beginning of its full name. -/
def TypeInfo.isFramework (t : TypeInfo) : Bool :=
  frameworkPrefixes.any (Text.startsWith t.fullName)

/-- Whether a name is one that only compilers give: it holds an angle bracket or starts with two
underscores. -/
def isGeneratedName (name : String) : Bool :=
  Text.holds name '<' || Text.holds name '>' || Text.startsWith name "__"

/-- Whether a type was made by a compiler, by its mark or by its name. -/
def TypeInfo.looksGenerated (t : TypeInfo) : Bool :=
  t.isGenerated || isGeneratedName t.name || Text.contains t.name "AnonymousType"
    || Text.contains t.name "DisplayClass"

/-- Whether the part of a type's name that is asked for occurs in its simple or full name. -/
def Filters.matchesType (f : Filters) (t : TypeInfo) : Bool :=
  match f.typeName? with
  | some part => Text.contains t.name part || Text.contains t.fullName part
  | none => true

/-- Whether a type is of interest: it matches what is asked for, belongs to no framework, was not
made by a compiler, and has a member. -/
def Filters.acceptsType (f : Filters) (t : TypeInfo) : Bool :=
  f.matchesType t && !t.isFramework && !t.looksGenerated && !t.hasNoMembers

/-! ## Members -/

/-- The beginnings of the names of methods that implement a property or an event. -/
def accessorPrefixes : List String :=
  ["get_", "set_", "add_", "remove_"]

/-- Whether a method was made by a compiler or implements a property or an event. -/
def MethodInfo.looksGenerated (m : MethodInfo) : Bool :=
  m.isGenerated || accessorPrefixes.any (Text.startsWith m.name) || isGeneratedName m.name

/-- Whether the part of a method's name that is asked for occurs in its name. -/
def Filters.matchesMethod (f : Filters) (m : MethodInfo) : Bool :=
  match f.methodName? with
  | some part => Text.contains m.name part
  | none => true

/-- Whether a method is of interest. -/
def Filters.acceptsMethod (f : Filters) (m : MethodInfo) : Bool :=
  f.matchesMethod m && !m.looksGenerated

/-- Whether a field is of interest. What is asked of methods does not concern fields. -/
def acceptsField (field : FieldInfo) : Bool :=
  !(field.isGenerated || isGeneratedName field.name)

end TypeInventory
