/-
Call trees: their nodes, counters, documents and text outlines.
-/

import ContractAtlas.Call.Classification
import ContractAtlas.Json.Document
import ContractAtlas.Json.Order

namespace ContractAtlas

structure Callable where
  /-- Position of the definition, its identity. -/
  position : Nat
  isFunction : Bool
  kind : Datum
  contract : Datum
  path : Datum
  /-- Null for a modifier. -/
  mutability : Datum
  isStatic : Bool

structure CallInfo where
  /-- Nothing for low-level calls and unresolved references. -/
  declaration : Option Callable := none
  name : Datum
  callType : CallType := .internal
  lowLevel : Option LowLevelKind := none
  /-- The target is already being expanded further up. -/
  recursive : Bool := false

inductive CallNode where
  | mk (info : CallInfo) (children : List CallNode)

namespace CallNode

instance : Inhabited CallNode :=
  ⟨mk { name := .plain .null } []⟩

def info : CallNode → CallInfo
  | mk info _ => info

def children : CallNode → List CallNode
  | mk _ children => children

def name (node : CallNode) : Json :=
  node.info.name.value

def contractName (node : CallNode) : Datum :=
  match node.info.declaration with
  | some declaration => declaration.contract
  | none => .text ""

def sourcePath (node : CallNode) : Datum :=
  match node.info.declaration with
  | some declaration => declaration.path
  | none => .text ""

def kind (node : CallNode) : Datum :=
  match node.info.declaration with
  | some declaration => declaration.kind
  | none =>
      if node.info.lowLevel.isSome then .text "low-level"
      else .text "unresolved"

def isStatic (node : CallNode) : Bool :=
  match node.info.declaration with
  | some declaration => declaration.isFunction && declaration.isStatic
  | none => false

def isFunction (node : CallNode) : Bool :=
  match node.info.declaration with
  | some declaration => declaration.isFunction
  | none => false

def isExternal (node : CallNode) : Bool :=
  node.info.callType.isExternal

mutual

def size : CallNode → Nat
  | mk _ children => sizeOfAll children + 1

def sizeOfAll : List CallNode → Nat
  | [] => 0
  | node :: rest => size node + sizeOfAll rest

end

theorem sizeOfAll_append (left right : List CallNode) :
    sizeOfAll (left ++ right) = sizeOfAll left + sizeOfAll right := by
  induction left with
  | nil => simp [sizeOfAll]
  | cons node rest inductionHypothesis =>
      simp only [List.cons_append, sizeOfAll, inductionHypothesis]
      omega

theorem size_eq (node : CallNode) :
    node.size = sizeOfAll node.children + 1 := by
  cases node with
  | mk info below => simp only [size, children]

/-- Visits the pending nodes: the first of them, then its children before the
others. -/
def visit : List CallNode → List CallNode
  | [] => []
  | node :: pending => node :: visit (node.children ++ pending)
termination_by pending => sizeOfAll pending
decreasing_by
  simp only [sizeOfAll, sizeOfAll_append, size_eq node]
  omega

def walk (node : CallNode) : List CallNode :=
  visit [node]

def countNodes (root : CallNode) : Nat :=
  root.walk.length

def countExternal (root : CallNode) : Nat :=
  root.walk.countP isExternal

/-- External calls whose target may change the state. -/
def countMutating (root : CallNode) : Nat :=
  root.walk.countP fun node => node.isExternal && !node.isStatic

def countStatic (root : CallNode) : Nat :=
  root.walk.countP fun node => node.isExternal && node.isStatic

mutual

def document : CallNode → Document
  | mk info children =>
      let node := mk info []
      .fields
        [("name", .value info.name), ("kind", .value node.kind),
          ("contract", .value node.contractName),
          ("call_type", .text info.callType.name),
          ("low_level_kind",
            match info.lowLevel with
            | some kind => .text kind.name
            | none => .null),
          ("source_path", .value node.sourcePath),
          ("recursive", .flag info.recursive),
          ("children", .list (documents children))]

def documents : List CallNode → List Document
  | [] => []
  | node :: rest => document node :: documents rest

end

def marker (info : CallInfo) : String :=
  match info.lowLevel with
  | some kind => " [low-level " ++ kind.name ++ "]"
  | none =>
      match info.callType with
      | .internal => ""
      | .highLevel => " [high-level]"
      | .lowLevel => " [low-level]"

def outlineLabel (node : CallNode) : String :=
  let qualified :=
    if node.contractName.value.isGiven then
      node.contractName.value.spelling ++ "." ++ node.name.spelling
    else node.name.spelling
  qualified ++ marker node.info ++
    if node.info.recursive then " (recursive)" else ""

def indentation (depth : Int) : String :=
  String.ofList (List.replicate (2 * depth.toNat) ' ')

mutual

def outlineLines (depth : Int) : CallNode → List String
  | mk info children =>
      (indentation depth ++ outlineLabel (mk info [])) ::
        outlineLinesOfAll (depth + 1) children

def outlineLinesOfAll (depth : Int) : List CallNode → List String
  | [] => []
  | node :: rest => outlineLines depth node ++ outlineLinesOfAll depth rest

end

def outline (root : CallNode) (depth : Int) : String :=
  "\n".intercalate (root.outlineLines depth)

structure Reached where
  key : Json.Key
  name : Json
  callers : List (Json.Key × Json)

def Reached.addCaller (reached : Reached) (key : Json.Key) (caller : Json) :
    Reached :=
  if reached.callers.any fun other => other.1 = key then reached
  else { reached with callers := reached.callers ++ [(key, caller)] }

def noteReached (key : Json.Key) (name : Json) (callerKey : Json.Key)
    (caller : Json) : List Reached → List Reached
  | [] => [{ key := key, name := name, callers := [(callerKey, caller)] }]
  | reached :: rest =>
      if reached.key = key then reached.addCaller callerKey caller :: rest
      else reached :: noteReached key name callerKey caller rest

def keyOf (name : Json) : Except Fault Json.Key :=
  match name.key? with
  | some key => .ok key
  | none => .error (.noKey name.shape)

def internalBelow (root : CallNode) : List CallNode :=
  (visit root.children).filter fun node =>
    node.info.callType = .internal && node.isFunction

/-- Each internally called function with the roots that reach it, in the
order in which the functions are met. -/
def internalFunctions (roots : List CallNode) :
    Except Fault (List Reached) :=
  roots.foldlM
    (fun reached root =>
      root.internalBelow.foldlM
        (fun reached node => do
          let key ← keyOf node.name
          let callerKey ← keyOf root.name
          return noteReached key node.name callerKey root.name reached)
        reached)
    []

def precedes (left right : Json) : Except Fault Bool :=
  match left.isLess? right with
  | some isLess => .ok isLess
  | none => .error (.notComparable left.shape right.shape)

def insertSorted (value : Json) : List Json → Except Fault (List Json)
  | [] => .ok [value]
  | other :: rest => do
      if ← precedes value other then return value :: other :: rest
      return other :: (← insertSorted value rest)

def sortValues : List Json → Except Fault (List Json)
  | [] => .ok []
  | value :: rest => do insertSorted value (← sortValues rest)

def internalDocument (roots : List CallNode) : Except Fault Document := do
  let reached ← internalFunctions roots
  let entries ← reached.mapM fun function => do
    let callers ← sortValues (function.callers.map fun caller => caller.2)
    return (function.name,
      Document.list (callers.map fun caller => .value (.plain caller)))
  return .record entries

end CallNode

end ContractAtlas
