import TypeInventory.Descriptor
import TypeInventory.Text.Substring

set_option relaxedAutoImplicit false
set_option autoImplicit false

/-!
# The text of a descriptor

Types and members are written the way a programmer declares them, on one line:

| type | text |
|---|---|
| built-in | its keyword, or its name where it has none |
| array | element, then `[]` |
| reference to a variable | element; the keyword stands before the parameter |
| nullable | element, then `?` |
| instantiation | base without its arity, then the arguments in angle brackets |
| nested | enclosing type, a point, name |
| any other | its name |

## Main definitions

* `TypeName.text` — the text of a type.
* `ParameterInfo.text`, `MethodInfo.text`, `FieldInfo.text` — the text of a member.
-/

namespace TypeInventory

/-! ## Types -/

/-- The keyword of a built-in type, by its simple name in the runtime or by the keyword itself. -/
def keywordOf? : String → Option String
  | "Void" | "void" => some "void"
  | "Boolean" | "bool" => some "bool"
  | "Byte" | "byte" => some "byte"
  | "SByte" | "sbyte" => some "sbyte"
  | "Char" | "char" => some "char"
  | "Decimal" | "decimal" => some "decimal"
  | "Double" | "double" => some "double"
  | "Single" | "float" => some "float"
  | "Int32" | "int" => some "int"
  | "UInt32" | "uint" => some "uint"
  | "Int64" | "long" => some "long"
  | "UInt64" | "ulong" => some "ulong"
  | "Int16" | "short" => some "short"
  | "UInt16" | "ushort" => some "ushort"
  | "String" | "string" => some "string"
  | "Object" | "object" => some "object"
  | _ => none

/-- The text of a built-in type: its keyword, found with or without the namespace `System`, or
the given name where there is none. -/
def primitiveText (name : String) : String :=
  (keywordOf? ((Text.afterPrefix? name "System.").getD name)).getD name

/-- The character between the name of a generic type and the number of its parameters. -/
def arityMark : Char := '\x60'

/-- The name of a generic type without the arity mark and what follows it. A name that starts
with the mark is kept. -/
def withoutArity (name : String) : String :=
  match name.toList.takeWhile (· != arityMark) with
  | [] => name
  | base => String.ofList base

mutual

/-- The text of a type. -/
def TypeName.text : TypeName → String
  | .primitive name => primitiveText name
  | .array element => element.text ++ "[]"
  | .byRef element => element.text
  | .nullable element => element.text ++ "?"
  | .generic base args => withoutArity base ++ "<" ++ ", ".intercalate (TypeName.texts args) ++ ">"
  | .nested enclosing name => enclosing.text ++ "." ++ name
  | .plain name => name

/-- The texts of several types. -/
def TypeName.texts : List TypeName → List String
  | [] => []
  | t :: ts => t.text :: TypeName.texts ts

end

/-! ## Members -/

/-- A keyword and the blank after it, or nothing. -/
def keywordText : Option String → String
  | some keyword => keyword ++ " "
  | none => ""

/-- A keyword and the blank after it where a condition holds. -/
def keywordIf (condition : Bool) (keyword : String) : String :=
  if condition then keyword ++ " " else ""

/-- What stands before a parameter: `out` for one that the method assigns, else `ref` for one
passed by reference. -/
def ParameterInfo.direction (p : ParameterInfo) : String :=
  if p.isOut then "out " else keywordIf (p.isRef || p.type.isByRef) "ref"

/-- The text of a parameter: direction, type and name. The name may be empty. -/
def ParameterInfo.text (p : ParameterInfo) : String :=
  p.direction ++ p.type.text ++ " " ++ p.name

/-- The text of a method: keywords, return type, name, generic parameters and parameters. -/
def MethodInfo.text (m : MethodInfo) : String :=
  keywordText m.access.keyword? ++ keywordIf m.isStatic "static"
    ++ keywordText m.inheritance.keyword? ++ m.returnType.text ++ " " ++ m.name
    ++ (if m.genericParameters.isEmpty then ""
        else "<" ++ ", ".intercalate m.genericParameters ++ ">")
    ++ "(" ++ ", ".intercalate (m.parameters.map ParameterInfo.text) ++ ")"

/-- The text of a field: keywords, type and name. A field that only constructors assign is not
shown as constant as well. -/
def FieldInfo.text (f : FieldInfo) : String :=
  keywordText f.access.keyword? ++ keywordIf f.isStatic "static"
    ++ keywordIf f.isReadOnly "readonly" ++ keywordIf (f.isConstant && !f.isReadOnly) "const"
    ++ f.type.text ++ " " ++ f.name

end TypeInventory
