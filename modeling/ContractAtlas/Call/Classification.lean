/-
Risk classes of calls.

A call is low-level when it uses one of the five members of an address, and
high-level when it goes through a contract or an address.  A call through a
library is high-level when the library function has return values and itself
makes an external call.
-/

import ContractAtlas.Solidity.TypeName
import ContractAtlas.Source.Visited

namespace ContractAtlas

inductive CallType where
  | internal
  | highLevel
  | lowLevel
deriving DecidableEq

namespace CallType

def name : CallType → String
  | internal => "internal"
  | highLevel => "high-level"
  | lowLevel => "low-level"

def ofName? (text : String) : Option CallType :=
  [internal, highLevel, lowLevel].find? fun callType => callType.name == text

def isExternal (callType : CallType) : Bool :=
  callType ≠ internal

end CallType

inductive LowLevelKind where
  | call
  | staticcall
  | delegatecall
  | send
  | transfer
deriving DecidableEq

namespace LowLevelKind

def name : LowLevelKind → String
  | call => "call"
  | staticcall => "staticcall"
  | delegatecall => "delegatecall"
  | send => "send"
  | transfer => "transfer"

def ofName? (text : String) : Option LowLevelKind :=
  [call, staticcall, delegatecall, send, transfer].find? fun kind =>
    kind.name == text

end LowLevelKind

/-- The class of a call; the kind is there exactly for low-level calls. -/
structure Classification where
  callType : CallType
  lowLevel : Option LowLevelKind := none
deriving DecidableEq

inductive Route (compilation : Compilation) where
  | inside
  | outside
  | library (target : compilation.Place)

namespace Compilation

/-- The kind of a low-level call.  A member that is resolved belongs to a
user function that happens to share the name. -/
def lowLevelKind (call : Node) : Except Fault (Option LowLevelKind) :=
  match call.callee? with
  | none => .ok none
  | some callee =>
      if callee.kind = .memberAccess then
        match callee.memberName with
        | .str member =>
            match LowLevelKind.ofName? member with
            | none => .ok none
            | some kind =>
                if callee.referenceId?.isSome then .ok none
                else .ok (some kind)
        | other =>
            match other.key? with
            | some _ => .ok none
            | none => .error (.noKey other.shape)
      else .ok none

def receiverType (receiver : Option Node) : Except Fault (List Char) :=
  match receiver with
  | none => .ok []
  | some node =>
      match node.typeStringOrEmpty with
      | .error fault => .error fault
      | .ok (.str type) => .ok type.toList
      | .ok other => .error (.noOperation other.shape "startswith")

def isAddressType (type : List Char) : Bool :=
  let normal := TypeName.normalize type
  normal == "address".toList || normal == "address payable".toList

/-- The function that a call through a member reaches, unless it is left out
for being static. -/
def memberTarget? (compilation : Compilation) (noStatic : Bool)
    (callee : Node) : Option compilation.Place :=
  if callee.kind = .memberAccess then
    match compilation.referenced? callee with
    | none => none
    | some target =>
        let function := compilation.node target
        if function.kind = .functionDefinition ∧
            ¬(noStatic = true ∧ function.isStatic = true) then some target
        else none
  else none

def route (compilation : Compilation) (noStatic : Bool) (call : Node) :
    Except Fault (Route compilation) :=
  match call.callee? with
  | none => .ok .inside
  | some callee =>
      match compilation.memberTarget? noStatic callee with
      | none => .ok .inside
      | some target =>
          match receiverType callee.expression? with
          | .error fault => .error fault
          | .ok type =>
              if TypeName.startsWith type "type(library ".toList then
                .ok (.library target)
              else if TypeName.startsWith type "contract ".toList ||
                  isAddressType type then .ok .outside
              else .ok .inside

def callsBelow (compilation : Compilation) (place : compilation.Place) :
    List Node :=
  (compilation.node place).descendantsOfKind .functionCall

def hasReturns (compilation : Compilation) (place : compilation.Place) : Bool :=
  !(compilation.node place).returnParameters.isEmpty

def anyExternal (compilation : Compilation) (noStatic : Bool)
    (visited : List compilation.Place) : List Node → Except Fault Bool
  | [] => .ok false
  | call :: rest =>
      match lowLevelKind call with
      | .error fault => .error fault
      | .ok (some _) => .ok true
      | .ok none =>
          match compilation.route noStatic call with
          | .error fault => .error fault
          | .ok .outside => .ok true
          | .ok .inside => anyExternal compilation noStatic visited rest
          | .ok (.library target) =>
              if _fresh : compilation.hasReturns target = true ∧
                  target ∉ visited then
                match anyExternal compilation noStatic (target :: visited)
                    (compilation.callsBelow target) with
                | .error fault => .error fault
                | .ok true => .ok true
                | .ok false => anyExternal compilation noStatic visited rest
              else anyExternal compilation noStatic visited rest
termination_by calls => (compilation.unvisited visited, calls.length)
decreasing_by
  · exact Prod.Lex.right _ (Nat.lt_succ_self _)
  · exact Prod.Lex.left _ _ (compilation.unvisited_cons_lt _fresh.2)
  · exact Prod.Lex.right _ (Nat.lt_succ_self _)
  · exact Prod.Lex.right _ (Nat.lt_succ_self _)

/-- A library function forwards when it has return values and makes an
external call. -/
def forwards (compilation : Compilation) (noStatic : Bool)
    (target : compilation.Place) : Except Fault Bool :=
  if compilation.hasReturns target then
    compilation.anyExternal noStatic [target] (compilation.callsBelow target)
  else .ok false

def isHighLevel (compilation : Compilation) (noStatic : Bool) (call : Node) :
    Except Fault Bool :=
  match compilation.route noStatic call with
  | .error fault => .error fault
  | .ok .inside => .ok false
  | .ok .outside => .ok true
  | .ok (.library target) => compilation.forwards noStatic target

/-- The class of a call.  With `noStatic`, calls of functions that promise
not to change the state are not high-level. -/
def classify (compilation : Compilation) (noStatic : Bool) (call : Node) :
    Except Fault Classification :=
  match lowLevelKind call with
  | .error fault => .error fault
  | .ok (some kind) => .ok { callType := .lowLevel, lowLevel := some kind }
  | .ok none =>
      match compilation.isHighLevel noStatic call with
      | .error fault => .error fault
      | .ok true => .ok { callType := .highLevel }
      | .ok false => .ok { callType := .internal }

end Compilation

end ContractAtlas
