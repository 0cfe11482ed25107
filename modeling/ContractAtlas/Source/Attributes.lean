/-
Attributes of syntax nodes.

An attribute that is missing has a default; one that is there is taken as it
stands, whatever its shape.
-/

import ContractAtlas.Source.Node

namespace ContractAtlas

/-- The items of a list, the characters of a text, the keys of an object. -/
def Json.items : Json → Except Fault (List Json)
  | .arr items => .ok items
  | .str text => .ok (text.toList.map fun c => .str (String.singleton c))
  | .obj entries => .ok (entries.map fun entry => .str entry.1)
  | other => .error (.notIterable other.shape)

namespace Node

def attribute? (key : String) (node : Node) : Option Json :=
  node.info.attributes.lookup key

def attributeOr (key : String) (fallback : Json) (node : Node) : Json :=
  (node.attribute? key).getD fallback

def textOr (key fallback : String) (node : Node) : Json :=
  node.attributeOr key (.str fallback)

def flagOr (key : String) (fallback : Bool) (node : Node) : Bool :=
  match node.attribute? key with
  | some value => value.isGiven
  | none => fallback

def nodeType (node : Node) : Json :=
  node.textOr "nodeType" ""

def id (node : Node) : Json :=
  node.attributeOr "id" .null

def src (node : Node) : Json :=
  node.textOr "src" ""

/-- The id of a user declaration that the node refers to; builtins have
negative ids. -/
def referenceId? (node : Node) : Option Json :=
  match node.attribute? "referencedDeclaration" with
  | some value =>
      match value.toInt? with
      | some id => if 0 ≤ id then some value else none
      | none => none
  | none => none

def typeString (node : Node) : Except Fault Json :=
  let descriptions := node.attributeOr "typeDescriptions" .null
  if descriptions.isGiven then
    match descriptions with
    | .obj entries => .ok ((entries.lookup "typeString").getD .null)
    | other => .error (.noOperation other.shape "get")
  else .ok .null

def typeStringOrEmpty (node : Node) : Except Fault Json := do
  return (← node.typeString).givenOr (.str "")

def name? (node : Node) : Option Json :=
  match node.kind with
  | .contractDefinition | .functionDefinition | .modifierDefinition
  | .variableDeclaration | .structDefinition | .enumDefinition
  | .eventDefinition | .errorDefinition | .valueTypeDefinition
  | .elementaryTypeName | .identifierPath | .identifier =>
      some (node.textOr "name" "")
  | .userDefinedTypeName =>
      match node.field? "pathNode" with
      | some path =>
          if path.kind = .identifierPath then some (path.textOr "name" "")
          else some (node.textOr "name" "")
      | none => some (node.textOr "name" "")
  | .sourceUnit | .parameterList | .modifierInvocation | .memberAccess
  | .functionCallOptions | .functionCall | .plain => none

def name (node : Node) : Json :=
  node.name?.getD (.str "")

def label (node : Node) : String :=
  let name :=
    match node.name? with
    | some name => if name.isGiven then " " ++ name.spelling else ""
    | none => ""
  "<" ++ node.nodeType.spelling ++ name ++ " #" ++ node.id.spelling ++ ">"

def fieldsOfKind (key : String) (kind : Kind) (node : Node) : List Node :=
  (node.fieldList key).filter fun child => child.kind = kind

def membersOfKind (kind : Kind) (node : Node) : List Node :=
  node.fieldsOfKind "nodes" kind

def contracts (unit : Node) : List Node :=
  unit.membersOfKind .contractDefinition

def contractKind (contract : Node) : Json :=
  contract.textOr "contractKind" "contract"

def isAbstract (contract : Node) : Bool :=
  contract.flagOr "abstract" false

def isFullyImplemented (contract : Node) : Bool :=
  contract.flagOr "fullyImplemented" true

def parameterVariables (list : Node) : List Node :=
  list.fieldsOfKind "parameters" .variableDeclaration

def parametersIn (key : String) (function : Node) : List Node :=
  match function.field? key with
  | some list =>
      if list.kind = .parameterList then list.parameterVariables else []
  | none => []

def parameters (function : Node) : List Node :=
  function.parametersIn "parameters"

def returnParameters (function : Node) : List Node :=
  function.parametersIn "returnParameters"

def body? (definition : Node) : Option Node :=
  definition.field? "body"

def functionKind (function : Node) : Json :=
  match function.attribute? "kind" with
  | some kind => kind
  | none =>
      if function.flagOr "isConstructor" false then .str "constructor"
      else .str "function"

/-- The visibility; functions have no default, variables and modifiers are
internal. -/
def visibility (definition : Node) : Json :=
  if definition.kind = .functionDefinition then
    definition.textOr "visibility" ""
  else definition.textOr "visibility" "internal"

def stateMutability (function : Node) : Json :=
  function.textOr "stateMutability" "nonpayable"

def isImplemented (function : Node) : Bool :=
  function.flagOr "implemented" function.body?.isSome

def isStatic (function : Node) : Bool :=
  function.stateMutability.isOneOf ["pure", "view", "constant"]

def displayName (definition : Node) : Json :=
  if definition.kind = .functionDefinition then
    if definition.name.isGiven then definition.name
    else if definition.functionKind.isOneOf
        ["constructor", "fallback", "receive"] then definition.functionKind
    else .str "Unknown"
  else definition.name

def isConstant (declaration : Node) : Bool :=
  declaration.flagOr "constant" false

def mutability (declaration : Node) : Json :=
  match declaration.attribute? "mutability" with
  | some mutability => mutability
  | none => if declaration.isConstant then .str "constant" else .str "mutable"

def isStateVariable (declaration : Node) : Bool :=
  declaration.flagOr "stateVariable" false

def isStorageFree (declaration : Node) : Bool :=
  declaration.isConstant || declaration.mutability.isOneOf ["constant", "immutable"]

def typeName? (declaration : Node) : Option Node :=
  declaration.field? "typeName"

def canonicalName (definition : Node) : Json :=
  definition.attributeOr "canonicalName" definition.name

def structFields (definition : Node) : List Node :=
  definition.fieldsOfKind "members" .variableDeclaration

def underlyingType? (definition : Node) : Option Node :=
  definition.field? "underlyingType"

def memberName (access : Node) : Json :=
  access.textOr "memberName" ""

def expression? (node : Node) : Option Node :=
  node.field? "expression"

def optionNames (options : Node) : Except Fault (List Json) :=
  (options.attributeOr "names" (.arr [])).items

def callKind (call : Node) : Json :=
  call.textOr "kind" "functionCall"

/-- A call of an unresolved member `value` or `gas` sets an option of the
call around it. -/
def isLegacyOption (access : Node) : Bool :=
  access.kind = .memberAccess &&
    access.memberName.isOneOf ["value", "gas"] &&
    access.info.target.isNone

/-- The expression that names the target of a call, below any call options:
a member access, an identifier or an identifier path. -/
def unwrapOptions (expression : Node) : Option Node :=
  match expression.kind with
  | .functionCallOptions =>
      match _found : expression.expression? with
      | some inner => unwrapOptions inner
      | none => none
  | .functionCall =>
      match _found : expression.expression? with
      | some access =>
          if access.isLegacyOption then
            match _foundBelow : access.expression? with
            | some inner => unwrapOptions inner
            | none => none
          else none
      | none => none
  | .memberAccess => some expression
  | .identifier => some expression
  | .identifierPath => some expression
  | _ => none
termination_by expression.size
decreasing_by
  · exact size_lt_of_field? _found
  · exact Nat.lt_trans (size_lt_of_field? _foundBelow) (size_lt_of_field? _found)

def callee? (call : Node) : Option Node :=
  call.expression?.bind unwrapOptions

/-- The position of the declaration that a node refers to; a call refers to
what its callee does. -/
def referencedPosition? (node : Node) : Option Nat :=
  if node.kind = .functionCall then
    node.callee?.bind fun callee => callee.info.target
  else node.info.target

end Node

end ContractAtlas
