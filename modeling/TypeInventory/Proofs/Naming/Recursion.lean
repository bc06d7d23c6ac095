import TypeInventory.Proofs.Checked.Resolving
import TypeInventory.Proofs.Module.Members

set_option relaxedAutoImplicit false
set_option autoImplicit false

/-!
# Naming as a recursion over tables

The type that a signature or a token stands for is found by a recursion that follows the tables of
a module, and these may lead in a circle. This module takes the recursion apart. What is named are
*nodes*, signatures and tokens; one step looks a node up, and tells which other nodes have to be
named and what is made of their names. Everything about the recursion is then said once, about a
step.

## Main definitions

* `NameNode`, `NameStep` — what is named, and what a look at it tells.
* `MetadataModule.look` — one step of naming.
* `MetadataModule.nameWithin` — the name of a node, at most so many levels deep.
* `MetadataModule.nameOnStack` — the same recursion with its depth counted upwards, on a stack of
  limited size; running out of the stack is not a fault but no answer at all.
* `MetadataModule.Follows` — from which nodes naming goes on to which.

## Main results

* `MetadataModule.nameWithin_succ` — naming is a step, and then the names of the nodes in it.
* `MetadataModule.mem_nodes_of_follows` — the nodes that are followed are among those of the step.
* `MetadataModule.nameOnStack_eq` — a stack of `nestingLimit + 1` frames always suffices.
* `MetadataModule.exists_ok_of_follows` — a node has a name only if all nodes that are followed from
  it have names, with one level less.
-/

namespace TypeInventory

open Checked

/-! ## Steps -/

/-- What is named: a signature, or the type of a token. -/
inductive NameNode where
  /-- A signature. -/
  | signature (sig : TypeSig)
  /-- The type that a token names. -/
  | token (token : Token)

/-- What a look at a node tells. -/
inductive NameStep where
  /-- Its name is known. -/
  | done (name : TypeName)
  /-- Its name is a form of the name of another node. -/
  | form (shape : TypeName → TypeName) (node : NameNode)
  /-- It is the instantiation of a generic type with other nodes. -/
  | instantiation (typeNamespace name : String) (args : List NameNode)

namespace NameStep

/-- The nodes that have to be named. -/
def nodes : NameStep → List NameNode
  | done _ => []
  | form _ node => [node]
  | instantiation _ _ args => args

/-- The name, where `name` names the nodes. -/
def complete {μ : Type → Type} [Monad μ] (name : NameNode → μ TypeName) : NameStep → μ TypeName
  | done result => return result
  | form shape node => return shape (← name node)
  | instantiation typeNamespace base args =>
    return instantiationName typeNamespace base (← args.mapM name)

/-- A name is complete only if all nodes have names. -/
lemma exists_ok_of_complete {name : NameNode → Except Fault TypeName} {step : NameStep}
    {result : TypeName} (h : step.complete name = .ok result) {x : NameNode}
    (hx : x ∈ step.nodes) : ∃ result', name x = .ok result' := by
  cases step with
  | done known => cases hx
  | form shape node =>
    obtain rfl := List.mem_singleton.mp hx
    obtain ⟨inner, hinner, -⟩ := OpenModule.exists_of_bind_eq_ok h
    exact ⟨inner, hinner⟩
  | instantiation typeNamespace base args =>
    obtain ⟨names, hnames, -⟩ := OpenModule.exists_of_bind_eq_ok h
    obtain ⟨inner, -, hinner⟩ := exists_ok_of_map_eq (mapM_eq_ok_iff.mp hnames) hx
    exact ⟨inner, hinner⟩

/-- Nodes that are named alike with a stack and without one have the same name. -/
lemma complete_plain {name : NameNode → ExceptT Fault Option TypeName}
    {name' : NameNode → Except Fault TypeName} (h : ∀ x, name x = plain (name' x))
    (step : NameStep) : step.complete name = plain (step.complete name') := by
  cases step with
  | done known => rfl
  | form shape node =>
    rw [complete, h]
    exact plain_bind fun _ _ => rfl
  | instantiation typeNamespace base args =>
    rw [complete, mapM_plain fun x _ => h x]
    exact plain_bind fun _ _ => rfl

end NameStep

/-- The name of a pointer to a type. -/
def TypeName.pointerTo (target : TypeName) : TypeName :=
  .plain (target.simpleName ++ "*")

namespace MetadataModule

variable (m : MetadataModule) (scope : GenericScope)

/-- A look at a token. -/
def lookAtToken (token : Token) : Except Fault NameStep :=
  if token.table = TableId.typeDef.number then
    match m.typeDefs.get? token.row with
    | none => throw (.malformed (.danglingTypeDef token))
    | some row => do
      let typeNamespace ← m.strings.get row.typeNamespace
      let name ← m.strings.get row.typeName
      if hasKeyword typeNamespace name then
        return .done (.primitive name)
      else
        match m.typeGenerics[token.row]?, m.enclosing[token.row]? with
        | some parameters, _ => return .done (.generic name (parameters.map .plain))
        | none, some outer =>
          if row.flags % visibilityBits = nestedPublic then
            return .done (.plain name)
          else
            return .form (.nested · name) (.token (TableId.typeDef.token outer))
        | none, none => return .done (.plain name)
  else if token.table = TableId.typeRef.number then do
    let (typeNamespace, name) ← m.typeRefNames token.row
    return .done (if hasKeyword typeNamespace name then .primitive name else .plain name)
  else if token.table = TableId.typeSpec.number then
    match m.typeSpecs.get? token.row with
    | none => throw (.malformed (.danglingTypeSpec token))
    | some row => do
      let blob ← m.blobs.get row.signature
      let sig ← TypeSig.ofBlob blob
      return .form id (.signature sig)
  else
    throw (.malformed (.typeToken token))

/-- A look at a node. -/
def look : NameNode → Except Fault NameStep
  | .token token => m.lookAtToken token
  | .signature (.primitive p) => return .done (.primitive p.runtimeName)
  | .signature (.classType token) => return .form id (.token token)
  | .signature (.valueType token) => return .form id (.token token)
  | .signature (.typeParameter i) => return .done (.plain (scope.typeParameters[i]?.getD s!"!{i}"))
  | .signature (.methodParameter i) =>
    return .done (.plain (scope.methodParameters[i]?.getD s!"!!{i}"))
  | .signature (.vector element) => return .form .array (.signature element)
  | .signature (.array element _) => return .form .array (.signature element)
  | .signature (.byRef target) => return .form .byRef (.signature target)
  | .signature (.pinned target) => return .form id (.signature target)
  | .signature (.pointer target) => return .form .pointerTo (.signature target)
  | .signature (.functionPointer _) => return .done (.primitive "IntPtr")
  | .signature (.instantiation base args) => do
    let (typeNamespace, name) ← m.instantiatedType base
    return .instantiation typeNamespace name (args.map .signature)

/-- The name of a node, at most `levels` levels deep. -/
def nameWithin (levels : ℕ) : NameNode → Except Fault TypeName
  | .signature sig => m.signatureNameWithin scope levels sig
  | .token token => m.tokenNameWithin scope levels token

/-- The name of a node that lies `depth` levels deep, found with a stack of `frames` frames; nothing
if the stack is too small. Deeper than `nestingLimit` no node is looked at. -/
def nameOnStack (frames depth : ℕ) (node : NameNode) : ExceptT Fault Option TypeName :=
  match frames with
  | 0 => ExceptT.mk none
  | frames + 1 =>
    if nestingLimit ≤ depth then
      throw .nesting
    else do
      let step ← m.look scope node
      step.complete (nameOnStack frames (depth + 1))

/-- From which nodes naming goes on to which. It passes by the types in a function pointer and the
type that an instantiation starts from. -/
inductive Follows : NameNode → NameNode → Prop where
  /-- From a reference type to its token. -/
  | classType (token : Token) : Follows (.signature (.classType token)) (.token token)
  /-- From a value type to its token. -/
  | valueType (token : Token) : Follows (.signature (.valueType token)) (.token token)
  /-- From a vector to its elements. -/
  | vector (element : TypeSig) : Follows (.signature (.vector element)) (.signature element)
  /-- From an array to its elements. -/
  | array (element : TypeSig) (rank : ℕ) :
    Follows (.signature (.array element rank)) (.signature element)
  /-- From a reference to its target. -/
  | byRef (target : TypeSig) : Follows (.signature (.byRef target)) (.signature target)
  /-- From a pinned type to the type itself. -/
  | pinned (target : TypeSig) : Follows (.signature (.pinned target)) (.signature target)
  /-- From a pointer to its target. -/
  | pointer (target : TypeSig) : Follows (.signature (.pointer target)) (.signature target)
  /-- From an instantiation to its arguments. -/
  | argument {base arg : TypeSig} {args : List TypeSig} (h : arg ∈ args) :
    Follows (.signature (.instantiation base args)) (.signature arg)
  /-- From the token of a constructed type to its signature. -/
  | typeSpec {token : Token} {row : TypeSpecRow} {blob : ByteArray} {sig : TypeSig}
    (htable : token.table = TableId.typeSpec.number)
    (hrow : m.typeSpecs.get? token.row = some row)
    (hblob : m.blobs.get row.signature = .ok blob) (hsig : TypeSig.ofBlob blob = .ok sig) :
    Follows (.token token) (.signature sig)
  /-- From the token of a nested type that is not public and has no name of another form to the
  type that encloses it. -/
  | enclosing {token : Token} {row : TypeDefRow} {outer : ℕ} {typeNamespace name : String}
    (htable : token.table = TableId.typeDef.number)
    (hrow : m.typeDefs.get? token.row = some row)
    (hnamespace : m.strings.get row.typeNamespace = .ok typeNamespace)
    (hname : m.strings.get row.typeName = .ok name)
    (hkeyword : hasKeyword typeNamespace name = false)
    (hgenerics : m.typeGenerics[token.row]? = none)
    (houter : m.enclosing[token.row]? = some outer)
    (hvisibility : row.flags % visibilityBits ≠ nestedPublic) :
    Follows (.token token) (.token (TableId.typeDef.token outer))

/-! ## Naming by steps -/

/-- At no level there are no names. -/
lemma nameWithin_zero (node : NameNode) : m.nameWithin scope 0 node = .error .nesting := by
  cases node <;> rfl

/-- Naming a token is a look at it, and then the names of the nodes that it leads to. -/
lemma tokenNameWithin_succ (levels : ℕ) (token : Token) :
    m.tokenNameWithin scope (levels + 1) token =
      m.lookAtToken token >>= NameStep.complete (m.nameWithin scope levels) := by
  rw [tokenNameWithin, lookAtToken]
  split_ifs
  · cases m.typeDefs.get? token.row with
    | none => rfl
    | some row =>
      simp only
      cases m.strings.get row.typeNamespace with
      | error e => rfl
      | ok typeNamespace =>
        cases m.strings.get row.typeName with
        | error e => rfl
        | ok name =>
          change (if _ then _ else _) = (if _ then _ else _) >>= _
          split_ifs
          · rfl
          all_goals
            cases m.typeGenerics[token.row]? with
            | some parameters => rfl
            | none => cases m.enclosing[token.row]? <;> rfl
  · cases m.typeRefNames token.row with
    | error e => rfl
    | ok names =>
      change (if _ then _ else _) = pure (if _ then _ else _)
      split_ifs <;> rfl
  · cases m.typeSpecs.get? token.row with
    | none => rfl
    | some row =>
      simp only
      cases m.blobs.get row.signature with
      | error e => rfl
      | ok blob =>
        simp only [bind, Except.bind]
        cases TypeSig.ofBlob blob with
        | error e => rfl
        | ok sig => exact (bind_pure _).symm
  · rfl

/-- **Naming is a step, and then the names of the nodes in it.** -/
lemma nameWithin_succ (levels : ℕ) (node : NameNode) :
    m.nameWithin scope (levels + 1) node =
      m.look scope node >>= NameStep.complete (m.nameWithin scope levels) := by
  cases node with
  | token token => exact m.tokenNameWithin_succ scope levels token
  | signature sig =>
    cases sig with
    | primitive p => rfl
    | classType token => exact (bind_pure _).symm
    | valueType token => exact (bind_pure _).symm
    | typeParameter i => rfl
    | methodParameter i => rfl
    | vector element => rfl
    | array element rank => rfl
    | byRef target => rfl
    | pinned target => exact (bind_pure _).symm
    | pointer target => rfl
    | functionPointer method => rfl
    | instantiation base args =>
      change m.instantiatedType base >>= _ = (m.instantiatedType base >>= _) >>= _
      cases m.instantiatedType base with
      | error e => rfl
      | ok names =>
        change _ = (args.map NameNode.signature).mapM (m.nameWithin scope levels) >>= _
        rw [List.mapM_map]
        rfl

/-! ## Nodes that are followed -/

variable {m scope}

/-- A look at a nested type that is not public leads to the type that encloses it. -/
lemma lookAtToken_enclosing {token : Token} {row : TypeDefRow} {outer : ℕ}
    {typeNamespace name : String} (htable : token.table = TableId.typeDef.number)
    (hrow : m.typeDefs.get? token.row = some row)
    (hnamespace : m.strings.get row.typeNamespace = .ok typeNamespace)
    (hname : m.strings.get row.typeName = .ok name)
    (hkeyword : hasKeyword typeNamespace name = false)
    (hgenerics : m.typeGenerics[token.row]? = none)
    (houter : m.enclosing[token.row]? = some outer)
    (hvisibility : row.flags % visibilityBits ≠ nestedPublic) :
    m.lookAtToken token = .ok (.form (.nested · name) (.token (TableId.typeDef.token outer))) := by
  rw [lookAtToken, if_pos htable, hrow]
  simp only [hnamespace, hname, hgenerics, houter]
  change (if hasKeyword typeNamespace name = true then _ else _) = _
  rw [hkeyword, if_neg Bool.false_ne_true, if_neg hvisibility]
  rfl

/-- A look at a constructed type leads to its signature. -/
lemma lookAtToken_typeSpec {token : Token} {row : TypeSpecRow} {blob : ByteArray} {sig : TypeSig}
    (htable : token.table = TableId.typeSpec.number)
    (hrow : m.typeSpecs.get? token.row = some row)
    (hblob : m.blobs.get row.signature = .ok blob) (hsig : TypeSig.ofBlob blob = .ok sig) :
    m.lookAtToken token = .ok (.form id (.signature sig)) := by
  rw [lookAtToken, if_neg (by rw [htable]; decide), if_neg (by rw [htable]; decide), if_pos htable,
    hrow]
  simp only [hblob, bind, Except.bind, hsig]
  rfl

/-- A look at a node that can be named further shows every node that is followed from it. -/
lemma mem_nodes_of_follows {x y : NameNode} {step : NameStep} (hlook : m.look scope x = .ok step)
    (h : m.Follows x y) : y ∈ step.nodes := by
  cases h with
  | argument harg =>
    rename_i base arg args
    change (m.instantiatedType base >>= _) = _ at hlook
    cases hbase : m.instantiatedType base with
    | error e =>
      rw [hbase] at hlook
      cases hlook
    | ok names =>
      rw [hbase] at hlook
      cases hlook
      exact List.mem_map_of_mem harg
  | typeSpec htable hrow hblob hsig =>
    rw [look, lookAtToken_typeSpec htable hrow hblob hsig] at hlook
    cases hlook
    exact List.mem_singleton_self _
  | enclosing htable hrow hnamespace hname hkeyword hgenerics houter hvisibility =>
    rw [look, lookAtToken_enclosing htable hrow hnamespace hname hkeyword hgenerics houter
      hvisibility] at hlook
    cases hlook
    exact List.mem_singleton_self _
  | _ =>
    cases hlook
    exact List.mem_singleton_self _

/-- **A node has a name only if all nodes that are followed from it have names**, with one level
less. -/
lemma exists_ok_of_follows {levels : ℕ} {x y : NameNode} {name : TypeName}
    (hname : m.nameWithin scope (levels + 1) x = .ok name) (h : m.Follows x y) :
    ∃ name', m.nameWithin scope levels y = .ok name' := by
  rw [nameWithin_succ] at hname
  cases hlook : m.look scope x with
  | error e =>
    rw [hlook] at hname
    cases hname
  | ok step =>
    rw [hlook] at hname
    exact step.exists_ok_of_complete hname (mem_nodes_of_follows hlook h)

/-! ## Naming on a stack -/

variable (m scope) in
/-- **A stack of `nestingLimit + 1` frames always suffices**: naming a node on it gives an answer,
whatever circles there are in the tables, and this is the name within the levels that are left.

**Proof sketch.** By induction on the frames. A node that lies `nestingLimit` levels deep is refused
in its own frame; every other node takes one frame and hands on one less, for nodes that lie one
level deeper. -/
lemma nameOnStack_eq {frames depth : ℕ} (node : NameNode) (h : nestingLimit - depth < frames) :
    m.nameOnStack scope frames depth node =
      plain (m.nameWithin scope (nestingLimit - depth) node) := by
  induction frames generalizing depth node with
  | zero => cases h
  | succ frames ih =>
    rw [nameOnStack]
    split_ifs with hdepth
    · rw [Nat.sub_eq_zero_of_le hdepth, nameWithin_zero]
      rfl
    · obtain ⟨levels, hlevels⟩ : ∃ levels, nestingLimit - depth = levels + 1 :=
        ⟨nestingLimit - depth - 1, by omega⟩
      have hnext : ∀ x, m.nameOnStack scope frames (depth + 1) x =
          plain (m.nameWithin scope levels x) := by
        intro x
        rw [ih x (by omega), show nestingLimit - (depth + 1) = levels by omega]
      rw [hlevels, nameWithin_succ]
      exact plain_bind fun step _ => step.complete_plain hnext

end MetadataModule

end TypeInventory
