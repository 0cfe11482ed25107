/-
Kinds of syntax nodes, and the order in which their attributes are visited.
-/

import ContractAtlas.Json.Basic

namespace ContractAtlas

/-- The kinds of nodes that the analyses look into; all others are plain. -/
inductive Kind where
  | sourceUnit
  | contractDefinition
  | parameterList
  | functionDefinition
  | modifierDefinition
  | modifierInvocation
  | variableDeclaration
  | structDefinition
  | enumDefinition
  | eventDefinition
  | errorDefinition
  | valueTypeDefinition
  | elementaryTypeName
  | userDefinedTypeName
  | identifierPath
  | identifier
  | memberAccess
  | functionCallOptions
  | functionCall
  | plain
deriving DecidableEq

namespace Kind

def table : List (String × Kind) :=
  [("SourceUnit", sourceUnit), ("ContractDefinition", contractDefinition),
    ("ParameterList", parameterList),
    ("FunctionDefinition", functionDefinition),
    ("ModifierDefinition", modifierDefinition),
    ("ModifierInvocation", modifierInvocation),
    ("VariableDeclaration", variableDeclaration),
    ("StructDefinition", structDefinition), ("EnumDefinition", enumDefinition),
    ("EventDefinition", eventDefinition), ("ErrorDefinition", errorDefinition),
    ("UserDefinedValueTypeDefinition", valueTypeDefinition),
    ("ElementaryTypeName", elementaryTypeName),
    ("UserDefinedTypeName", userDefinedTypeName),
    ("IdentifierPath", identifierPath), ("Identifier", identifier),
    ("MemberAccess", memberAccess),
    ("FunctionCallOptions", functionCallOptions),
    ("FunctionCall", functionCall)]

def ofNodeType : Json → Kind
  | .str name => (table.lookup name).getD plain
  | _ => plain

def isCallable (kind : Kind) : Bool :=
  kind = functionDefinition || kind = modifierDefinition

end Kind

/-- The attributes of a node type that are visited first, in this order. -/
def visitOrders : List (String × List String) :=
  [("ContractDefinition", ["baseContracts", "nodes"]),
    ("FunctionDefinition",
      ["documentation", "overrides", "parameters", "returnParameters",
        "modifiers", "body"]),
    ("ModifierDefinition", ["documentation", "parameters", "body"]),
    ("ModifierInvocation", ["modifierName", "arguments"]),
    ("FunctionCall", ["expression", "arguments"]),
    ("FunctionCallOptions", ["expression", "options"]),
    ("MemberAccess", ["expression"]),
    ("IndexAccess", ["baseExpression", "indexExpression"]),
    ("IfStatement", ["condition", "trueBody", "falseBody"]),
    ("Conditional", ["condition", "trueExpression", "falseExpression"]),
    ("ForStatement",
      ["initializationExpression", "condition", "loopExpression", "body"]),
    ("WhileStatement", ["condition", "body"]),
    ("DoWhileStatement", ["body", "condition"]),
    ("TryStatement", ["externalCall", "clauses"]),
    ("VariableDeclarationStatement", ["declarations", "initialValue"]),
    ("VariableDeclaration", ["typeName", "value"]),
    ("Assignment", ["leftHandSide", "rightHandSide"]),
    ("BinaryOperation", ["leftExpression", "rightExpression"]),
    ("EmitStatement", ["eventCall"]),
    ("RevertStatement", ["errorCall"])]

def visitOrder : Json → List String
  | .str name => (visitOrders.lookup name).getD []
  | _ => []

end ContractAtlas
