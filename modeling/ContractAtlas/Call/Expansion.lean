/-
Building call trees.

The nodes below a definition are walked in order.  Each of them may be a
site: a low-level call, a reference that cannot be resolved, or a reference
to a function or modifier.  A target is a child of a definition once, at its
first reference.  It is expanded in turn unless it is on the path from the
root or belongs to a dependency.
-/

import ContractAtlas.Call.Tree
import ContractAtlas.Journal

namespace ContractAtlas

structure TreeOptions where
  noStatic : Bool := false
  includeDeps : Bool := false
  includeLowLevel : Bool := false
  ignorePrefixes : List String

inductive Site (compilation : Compilation) where
  | lowLevel (kind : LowLevelKind)
  | unresolved (name src : Json)
  | declared (target : compilation.Place) (classification : Classification)
  | stop (fault : Fault)

namespace Compilation

/-- The name of a call whose callee refers to a declaration that is not part
of the compilation. -/
def unresolvedName (node : Node) : Json :=
  if node.kind = .functionCall && node.callKind.isText "functionCall" then
    match node.callee? with
    | some callee =>
        if callee.referenceId?.isSome then
          if callee.kind = .memberAccess then callee.memberName
          else callee.name
        else .null
    | none => .null
  else .null

def lowLevelSite (node : Node) : Except Fault (Option LowLevelKind) :=
  if node.kind = .functionCall then lowLevelKind node else .ok none

/-- The class of a reference: that of a call, and internal for any other
node. -/
def classifyReference (compilation : Compilation) (noStatic : Bool)
    (node : Node) : Except Fault Classification :=
  if node.kind = .functionCall then compilation.classify noStatic node
  else .ok { callType := .internal }

/-- The sites among nodes, given the targets and the unresolved names that
were met before. -/
def sitesAmong (compilation : Compilation) (options : TreeOptions)
    (definition : compilation.Place) (targets : List compilation.Place)
    (names : List Json.Key) : List Node → List (Site compilation)
  | [] => []
  | node :: rest =>
      match lowLevelSite node with
      | .error fault => [.stop fault]
      | .ok (some kind) =>
          let others :=
            sitesAmong compilation options definition targets names rest
          if options.includeLowLevel then .lowLevel kind :: others else others
      | .ok none =>
          match compilation.referenced? node with
          | none =>
              let name := unresolvedName node
              if name.isGiven then
                match name.key? with
                | none => [.stop (.noKey name.shape)]
                | some key =>
                    if key ∈ names then
                      sitesAmong compilation options definition targets names rest
                    else
                      .unresolved name node.src ::
                        sitesAmong compilation options definition targets
                          (key :: names) rest
              else sitesAmong compilation options definition targets names rest
          | some target =>
              if target == definition ||
                  !(compilation.node target).kind.isCallable ||
                  targets.contains target then
                sitesAmong compilation options definition targets names rest
              else
                match compilation.classifyReference options.noStatic node with
                | .error fault => [.stop fault]
                | .ok classification =>
                    .declared target classification ::
                      sitesAmong compilation options definition
                        (target :: targets) names rest

def sites (compilation : Compilation) (options : TreeOptions)
    (definition : compilation.Place) : List (Site compilation) :=
  compilation.sitesAmong options definition [] []
    (compilation.node definition).descendants

def callable (compilation : Compilation) (place : compilation.Place) :
    Callable :=
  let definition := compilation.node place
  let isFunction := definition.kind = .functionDefinition
  { position := place.val
    isFunction := isFunction
    kind :=
      if isFunction then
        compilation.datum definition "kind" definition.functionKind
      else .text "modifier"
    contract :=
      match compilation.contractOf? definition with
      | some contract => compilation.nameOf contract
      | none => .text ""
    path := compilation.pathDatum definition
    mutability :=
      if isFunction then
        compilation.datum definition "stateMutability"
          definition.stateMutability
      else .plain .null
    isStatic := definition.isStatic }

def displayDatum (compilation : Compilation) (definition : Node) : Datum :=
  compilation.datum definition "name" definition.displayName

def hasIgnoredPath (ignored : List String) (path : Json) : Except Fault Bool :=
  match path with
  | .str text => .ok (ignored.any fun start => text.startsWith start)
  | other =>
      if ignored.isEmpty then .ok false
      else .error (.noOperation other.shape "startswith")

def isDependency (compilation : Compilation) (options : TreeOptions)
    (target : compilation.Place) : Except Fault Bool :=
  if options.includeDeps then .ok false
  else
    hasIgnoredPath options.ignorePrefixes
      (compilation.pathOf (compilation.node target))

def targetNode (compilation : Compilation) (target : compilation.Place)
    (classification : Classification) (recursive : Bool)
    (children : List CallNode) : CallNode :=
  .mk
    { declaration := some (compilation.callable target)
      name := compilation.displayDatum (compilation.node target)
      callType := classification.callType
      lowLevel := classification.lowLevel
      recursive := recursive }
    children

/-- Expands sites; the path holds the definitions that are being expanded. -/
def expand (compilation : Compilation) (options : TreeOptions)
    (path : List compilation.Place) :
    List (Site compilation) → Journal (List CallNode)
  | [] => pure []
  | .stop fault :: _ => Journal.fail fault
  | .lowLevel kind :: rest => do
      let others ← expand compilation options path rest
      return .mk
        { name := .text kind.name
          callType := .lowLevel
          lowLevel := some kind }
        [] :: others
  | .unresolved name src :: rest => do
      Journal.log (.referenceUnresolved name src)
      let others ← expand compilation options path rest
      return .mk { name := .plain name } [] :: others
  | .declared target classification :: rest => do
      if _onPath : target ∈ path then
        let others ← expand compilation options path rest
        return compilation.targetNode target classification true [] :: others
      else
        let dependency ←
          Journal.ofExcept (compilation.isDependency options target)
        if dependency then
          let others ← expand compilation options path rest
          return compilation.targetNode target classification false [] :: others
        else
          let children ←
            expand compilation options (target :: path)
              (compilation.sites options target)
          let others ← expand compilation options path rest
          return compilation.targetNode target classification false children ::
            others
termination_by sites => (compilation.unvisited path, sites.length)
decreasing_by
  · exact Prod.Lex.right _ (Nat.lt_succ_self _)
  · exact Prod.Lex.right _ (Nat.lt_succ_self _)
  · exact Prod.Lex.right _ (Nat.lt_succ_self _)
  · exact Prod.Lex.right _ (Nat.lt_succ_self _)
  · exact Prod.Lex.left _ _ (compilation.unvisited_cons_lt _onPath)
  · exact Prod.Lex.right _ (Nat.lt_succ_self _)

def callTree (compilation : Compilation) (options : TreeOptions)
    (root : compilation.Place) : Journal CallNode := do
  let definition := compilation.node root
  if definition.kind.isCallable then
    let children ←
      compilation.expand options [root] (compilation.sites options root)
    return .mk
      { declaration := some (compilation.callable root)
        name := compilation.displayDatum definition }
      children
  else Journal.fail (.notCallable definition.label)

end Compilation

end ContractAtlas
