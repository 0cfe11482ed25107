/-
Options of an analysis.
-/

import ContractAtlas.Call.Expansion

namespace ContractAtlas

/-- Paths that start so hold dependencies or test scaffolding. -/
def defaultIgnorePrefixes : List String :=
  ["node_modules", "test", "tests", "lib", "script", "scripts"]

structure AnalysisOptions where
  /-- Functions that do not change the state are roots as well. -/
  includeAll : Bool := false
  includeDeps : Bool := false
  /-- Calls of functions that do not change the state are not high-level. -/
  noStatic : Bool := false
  ignorePrefixes : List String := defaultIgnorePrefixes
  workers : Int := 1
  includeLowLevel : Bool := false

namespace AnalysisOptions

def trees (options : AnalysisOptions) : TreeOptions :=
  { noStatic := options.noStatic
    includeDeps := options.includeDeps
    includeLowLevel := options.includeLowLevel
    ignorePrefixes := options.ignorePrefixes }

def isIgnored (options : AnalysisOptions) (path : Json) : Except Fault Bool :=
  Compilation.hasIgnoredPath options.ignorePrefixes path

end AnalysisOptions

end ContractAtlas
