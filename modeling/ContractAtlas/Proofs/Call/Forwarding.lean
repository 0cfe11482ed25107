/-
Forwarding through libraries.

A call of a library function is external when the function has return values
and makes an external call itself, perhaps through other library functions of
that kind.  The search for such a call does not visit a function again that is
open on its path, since library functions may call each other in cycles.  This
loses nothing: a chain of functions that comes back to one of them can be cut
short, and the search follows every chain without repetitions.
-/

import Mathlib.Data.List.Chain
import ContractAtlas.Proofs.Call.LowLevel
import ContractAtlas.Proofs.Call.StaticCalls
import ContractAtlas.Proofs.Solidity.ArrayWidth

namespace ContractAtlas

open Relation

def TypeName.IsLibrary (type : List Char) : Prop :=
  "type(library ".toList <+: type

/-- The type of a contract or of an address. -/
def TypeName.IsForeign (type : List Char) : Prop :=
  "contract ".toList <+: type ∨ normalize type = "address".toList ∨
    normalize type = "address payable".toList

namespace Compilation

section Definitions

variable (compilation : Compilation) (noStatic : Bool)

/-- The call names a function as a member of a receiver of the type. -/
structure Invokes (call : Node) (function : compilation.Place)
    (type : List Char) : Prop where
  isFunction : (compilation.node function).kind = .functionDefinition
  named : ∃ callee, call.callee? = some callee ∧
    callee.kind = .memberAccess ∧
    compilation.referenced? callee = some function ∧
    receiverType callee.expression? = .ok type

/-- Calls of the function are not left out for its being static. -/
def Admissible (function : compilation.Place) : Prop :=
  ¬ (noStatic = true ∧ (compilation.node function).isStatic = true)

/-- A call below the first function reaches the second one in a library. -/
def ForwardsTo (function target : compilation.Place) : Prop :=
  ∃ call type, TransGen Node.HasChild (compilation.node function) call ∧
    call.kind = .functionCall ∧ compilation.Invokes call target type ∧
    compilation.Admissible noStatic target ∧ TypeName.IsLibrary type

/-- A call below the function leaves the contract without a library between. -/
def IsExternal (function : compilation.Place) : Prop :=
  ∃ call, TransGen Node.HasChild (compilation.node function) call ∧
    call.kind = .functionCall ∧
    (IsLowLevelCall call ∨
      ∃ target type, compilation.Invokes call target type ∧
        compilation.Admissible noStatic target ∧
        ¬ TypeName.IsLibrary type ∧ TypeName.IsForeign type)

/-- Functions with return values that forward from the first one to one that
is external. -/
structure ForwardingChain (function : compilation.Place)
    (chain : List compilation.Place) : Prop where
  starts : chain.head? = some function
  linked : chain.IsChain (compilation.ForwardsTo noStatic)
  returning : ∀ other ∈ chain, (compilation.node other).returnParameters ≠ []
  external : ∀ last ∈ chain.getLast?, compilation.IsExternal noStatic last

/-- What the search does with one call: it ends there, or it goes on in a
library function that is not open and finds a call there. -/
def LeadsOut (visited : List compilation.Place) (call : Node) : Prop :=
  (∃ kind, lowLevelKind call = .ok (some kind)) ∨
    compilation.route noStatic call = .ok .outside ∨
    ∃ target, compilation.route noStatic call = .ok (.library target) ∧
      compilation.hasReturns target = true ∧ target ∉ visited ∧
      compilation.anyExternal noStatic (target :: visited)
        (compilation.callsBelow target) = .ok true

end Definitions

variable {compilation : Compilation} {noStatic : Bool}

/-! ### Routes -/

private theorem mem_callsBelow_iff {function : compilation.Place}
    {call : Node} :
    call ∈ compilation.callsBelow function ↔
      TransGen Node.HasChild (compilation.node function) call ∧
        call.kind = .functionCall := by
  unfold callsBelow Node.descendantsOfKind
  rw [List.mem_filter, Node.mem_descendants_iff, decide_eq_true_eq]

private theorem hasReturns_iff {function : compilation.Place} :
    compilation.hasReturns function = true ↔
      (compilation.node function).returnParameters ≠ [] := by
  unfold hasReturns
  rw [Bool.not_eq_true', List.isEmpty_eq_false_iff]

private theorem isAddressType_iff {type : List Char} :
    isAddressType type = true ↔
      TypeName.normalize type = "address".toList ∨
        TypeName.normalize type = "address payable".toList := by
  unfold isAddressType
  rw [Bool.or_eq_true, beq_iff_eq, beq_iff_eq]

/-- Where the call of an admissible function leads is decided by the type. -/
theorem Invokes.route_eq {call : Node} {function : compilation.Place}
    {type : List Char} (invokes : compilation.Invokes call function type)
    (admissible : compilation.Admissible noStatic function) :
    compilation.route noStatic call =
      if TypeName.startsWith type "type(library ".toList then
        .ok (.library function)
      else if TypeName.startsWith type "contract ".toList ||
          isAddressType type then .ok .outside
      else .ok .inside := by
  obtain ⟨callee, called, isMember, refers, typed⟩ := invokes.named
  have reached : compilation.memberTarget? noStatic callee = some function :=
    memberTarget?_eq_some_iff.2
      ⟨isMember, refers, invokes.isFunction, admissible⟩
  unfold route
  rw [called]
  dsimp only
  rw [reached]
  dsimp only
  rw [typed]

private theorem exists_invokes_of_route {call : Node}
    {route : Route compilation}
    (found : compilation.route noStatic call = .ok route)
    (leaves : route ≠ .inside) :
    ∃ function type, compilation.Invokes call function type ∧
      compilation.Admissible noStatic function := by
  have notInside : compilation.route noStatic call ≠ .ok .inside := by
    rw [found]
    intro same
    exact leaves (Except.ok.inj same)
  obtain ⟨callee, function, called, reached⟩ :=
    exists_memberTarget?_of_route notInside
  obtain ⟨isMember, refers, isFunction, admissible⟩ :=
    memberTarget?_eq_some_iff.1 reached
  cases typed : receiverType callee.expression? with
  | error fault =>
      unfold Compilation.route at found
      rw [called] at found
      dsimp only at found
      rw [reached] at found
      dsimp only at found
      rw [typed] at found
      cases found
  | ok type =>
      exact ⟨function, type, ⟨isFunction, callee, called, isMember, refers, typed⟩,
        admissible⟩

private theorem Invokes.admissible_of_isHighLevel {call : Node}
    {function : compilation.Place} {type : List Char}
    (invokes : compilation.Invokes call function type)
    (high : compilation.isHighLevel noStatic call = .ok true) :
    compilation.Admissible noStatic function := by
  obtain ⟨callee, target, called, reached⟩ :=
    exists_memberTarget?_of_route (route_ne_inside_of_isHighLevel high)
  obtain ⟨-, refers, -, admissible⟩ := memberTarget?_eq_some_iff.1 reached
  obtain ⟨named, namedCalled, -, namedRefers, -⟩ := invokes.named
  cases Option.some.inj (called.symm.trans namedCalled)
  cases Option.some.inj (refers.symm.trans namedRefers)
  exact admissible

private theorem route_eq_library_iff {call : Node}
    {target : compilation.Place} :
    compilation.route noStatic call = .ok (.library target) ↔
      ∃ type, compilation.Invokes call target type ∧
        compilation.Admissible noStatic target ∧ TypeName.IsLibrary type := by
  constructor
  · intro found
    obtain ⟨function, type, invokes, admissible⟩ :=
      exists_invokes_of_route found (by simp)
    rw [invokes.route_eq admissible] at found
    split at found
    · next library =>
        cases found
        exact ⟨type, invokes, admissible, TypeName.startsWith_iff.1 library⟩
    · split at found
      · cases found
      · cases found
  · intro given
    obtain ⟨type, invokes, admissible, library⟩ := given
    rw [invokes.route_eq admissible, if_pos (TypeName.startsWith_iff.2 library)]

private theorem route_eq_outside_iff {call : Node} :
    compilation.route noStatic call = .ok .outside ↔
      ∃ target type, compilation.Invokes call target type ∧
        compilation.Admissible noStatic target ∧
        ¬ TypeName.IsLibrary type ∧ TypeName.IsForeign type := by
  have foreign_iff (type : List Char) :
      (TypeName.startsWith type "contract ".toList || isAddressType type) =
        true ↔ TypeName.IsForeign type := by
    rw [Bool.or_eq_true, TypeName.startsWith_iff, isAddressType_iff]
    rfl
  constructor
  · intro found
    obtain ⟨target, type, invokes, admissible⟩ :=
      exists_invokes_of_route found (by simp)
    rw [invokes.route_eq admissible] at found
    split at found
    · cases found
    · next notLibrary =>
        split at found
        · next foreign =>
            exact ⟨target, type, invokes, admissible,
              fun library => notLibrary (TypeName.startsWith_iff.2 library),
              (foreign_iff type).1 foreign⟩
        · cases found
  · intro given
    obtain ⟨target, type, invokes, admissible, notLibrary, foreign⟩ := given
    rw [invokes.route_eq admissible,
      if_neg (fun library => notLibrary (TypeName.startsWith_iff.1 library)),
      if_pos ((foreign_iff type).2 foreign)]

/-! ### The search as a whole -/

private theorem anyExternal_of_leadsOut {visited : List compilation.Place}
    {call : Node} {rest : List Node} (callLegible : call.LegibleBelow)
    (leads : compilation.LeadsOut noStatic visited call) :
    compilation.anyExternal noStatic visited (call :: rest) = .ok true := by
  obtain ⟨kind, lowLevel⟩ := exists_lowLevelKind callLegible
  rw [anyExternal, lowLevel]
  cases kind with
  | some kind => rfl
  | none =>
      rcases leads with ⟨kind, isLowLevel⟩ | outside |
        ⟨target, routed, returns, fresh, below⟩
      · rw [lowLevel] at isLowLevel
        cases isLowLevel
      · dsimp only
        rw [outside]
      · dsimp only
        rw [routed]
        dsimp only
        rw [dif_pos ⟨returns, fresh⟩, below]

/-- The search finds something exactly when some call leads out. -/
theorem anyExternal_eq_true_iff (legible : compilation.Legible)
    {visited : List compilation.Place} {calls : List Node}
    (callsLegible : ∀ call ∈ calls, call.LegibleBelow) :
    compilation.anyExternal noStatic visited calls = .ok true ↔
      ∃ call ∈ calls, compilation.LeadsOut noStatic visited call := by
  induction calls with
  | nil => simp [anyExternal]
  | cons call rest inductionHypothesis =>
      obtain ⟨callLegible, restLegible⟩ := List.forall_mem_cons.1 callsLegible
      have later := inductionHypothesis restLegible
      constructor
      · intro found
        by_cases leads : compilation.LeadsOut noStatic visited call
        · exact ⟨call, List.mem_cons_self, leads⟩
        · suffices further :
              compilation.anyExternal noStatic visited rest = .ok true by
            obtain ⟨other, member, otherLeads⟩ := later.1 further
            exact ⟨other, List.mem_cons_of_mem call member, otherLeads⟩
          unfold LeadsOut at leads
          rw [anyExternal] at found
          split at found
          · cases found
          · next kind lowLevel => exact absurd (Or.inl ⟨kind, lowLevel⟩) leads
          · split at found
            · cases found
            · next outside => exact absurd (Or.inr (Or.inl outside)) leads
            · exact found
            · next target routed =>
                split at found
                · next fresh =>
                    split at found
                    · cases found
                    · next below =>
                        exact absurd (Or.inr (Or.inr
                          ⟨target, routed, fresh.1, fresh.2, below⟩)) leads
                    · exact found
                · exact found
      · intro given
        obtain ⟨other, member, leads⟩ := given
        rcases List.mem_cons.1 member with same | isLater
        · rw [← same]
          exact anyExternal_of_leadsOut (same ▸ callLegible) leads
        · exact anyExternal_cons legible callLegible
            (later.2 ⟨other, isLater, leads⟩)

/-! ### Chains -/

private theorem isExternal_iff {function : compilation.Place} :
    compilation.IsExternal noStatic function ↔
      ∃ call ∈ compilation.callsBelow function,
        (∃ kind, lowLevelKind call = .ok (some kind)) ∨
          compilation.route noStatic call = .ok .outside := by
  unfold IsExternal IsLowLevelCall
  simp only [mem_callsBelow_iff, route_eq_outside_iff]
  constructor
  · intro given
    obtain ⟨call, below, isCall, lowLevel | outside⟩ := given
    · exact ⟨call, ⟨below, isCall⟩, Or.inl lowLevel.2⟩
    · exact ⟨call, ⟨below, isCall⟩, Or.inr outside⟩
  · intro given
    obtain ⟨call, ⟨below, isCall⟩, lowLevel | outside⟩ := given
    · exact ⟨call, below, isCall, Or.inl ⟨isCall, lowLevel⟩⟩
    · exact ⟨call, below, isCall, Or.inr outside⟩

private theorem forwardsTo_iff {function target : compilation.Place} :
    compilation.ForwardsTo noStatic function target ↔
      ∃ call ∈ compilation.callsBelow function,
        compilation.route noStatic call = .ok (.library target) := by
  unfold ForwardsTo
  simp only [mem_callsBelow_iff, route_eq_library_iff]
  constructor
  · intro given
    obtain ⟨call, type, below, isCall, reached⟩ := given
    exact ⟨call, ⟨below, isCall⟩, type, reached⟩
  · intro given
    obtain ⟨call, ⟨below, isCall⟩, type, reached⟩ := given
    exact ⟨call, type, below, isCall, reached⟩

theorem ForwardingChain.exists_cons {function : compilation.Place}
    {chain : List compilation.Place}
    (forwarding : compilation.ForwardingChain noStatic function chain) :
    ∃ rest, chain = function :: rest := by
  have starts := forwarding.starts
  cases chain with
  | nil => cases starts
  | cons first rest => exact ⟨rest, by rw [Option.some.inj starts]⟩

theorem ForwardingChain.cons {function target : compilation.Place}
    {chain : List compilation.Place}
    (forwards : compilation.ForwardsTo noStatic function target)
    (returns : (compilation.node function).returnParameters ≠ [])
    (forwarding : compilation.ForwardingChain noStatic target chain) :
    compilation.ForwardingChain noStatic function (function :: chain) := by
  obtain ⟨rest, rfl⟩ := forwarding.exists_cons
  exact
    { starts := rfl
      linked := .cons_cons forwards forwarding.linked
      returning := List.forall_mem_cons.2 ⟨returns, forwarding.returning⟩
      external := by
        rw [List.getLast?_cons_cons]
        exact forwarding.external }

/-- A chain can be entered at each of its functions. -/
theorem ForwardingChain.of_append {function other : compilation.Place}
    (front : List compilation.Place) {back : List compilation.Place}
    (forwarding : compilation.ForwardingChain noStatic function
      (front ++ other :: back)) :
    compilation.ForwardingChain noStatic other (other :: back) where
  starts := rfl
  linked := (List.isChain_append.1 forwarding.linked).2.1
  returning := (List.forall_mem_append.1 forwarding.returning).2
  external := by
    have external := forwarding.external
    rw [List.getLast?_append_of_ne_nil _ (List.cons_ne_nil other back)] at external
    exact external

/-- A chain that comes back to a function goes on from there. -/
theorem ForwardingChain.exists_nodup {function : compilation.Place}
    {chain : List compilation.Place}
    (forwarding : compilation.ForwardingChain noStatic function chain) :
    ∃ simple, compilation.ForwardingChain noStatic function simple ∧
      simple.Nodup := by
  induction chain generalizing function with
  | nil => cases forwarding.starts
  | cons first rest inductionHypothesis =>
      cases Option.some.inj forwarding.starts
      cases rest with
      | nil => exact ⟨[first], forwarding, List.nodup_singleton first⟩
      | cons next more =>
          obtain ⟨simple, later, distinct⟩ := inductionHypothesis
            (forwarding.of_append [first])
          by_cases met : first ∈ simple
          · obtain ⟨front, back, rfl⟩ := List.append_of_mem met
            exact ⟨first :: back, later.of_append front,
              (List.nodup_append.1 distinct).2.1⟩
          · have forwards := (List.isChain_cons_cons.1 forwarding.linked).1
            have returns := forwarding.returning first List.mem_cons_self
            exact ⟨first :: simple, later.cons forwards returns,
              List.nodup_cons.2 ⟨met, distinct⟩⟩

/-- What the search finds lies at the end of a chain.  The functions that are
open grow with each function that is entered. -/
theorem exists_chain_of_anyExternal (legible : compilation.Legible)
    {visited : List compilation.Place} {function : compilation.Place}
    (returns : compilation.hasReturns function = true)
    (found : compilation.anyExternal noStatic visited
      (compilation.callsBelow function) = .ok true) :
    ∃ chain, compilation.ForwardingChain noStatic function chain := by
  induction left : compilation.unvisited visited using Nat.strongRecOn
    generalizing visited function with
  | ind _ visitedHypothesis =>
      subst left
      have ownReturns := hasReturns_iff.1 returns
      have alone (external : compilation.IsExternal noStatic function) :
          compilation.ForwardingChain noStatic function [function] :=
        { starts := rfl
          linked := .singleton function
          returning := by
            intro other member
            rw [List.mem_singleton.1 member]
            exact ownReturns
          external := by
            intro last isLast
            cases isLast
            exact external }
      obtain ⟨call, member, leads⟩ := (anyExternal_eq_true_iff legible
        fun call member => legibleBelow_of_mem_callsBelow legible member).1 found
      rcases leads with lowLevel | outside | ⟨target, routed, targetReturns, fresh,
        below⟩
      · exact ⟨[function],
          alone (isExternal_iff.2 ⟨call, member, Or.inl lowLevel⟩)⟩
      · exact ⟨[function],
          alone (isExternal_iff.2 ⟨call, member, Or.inr outside⟩)⟩
      · obtain ⟨chain, forwarding⟩ := visitedHypothesis _
          (compilation.unvisited_cons_lt fresh) targetReturns below rfl
        exact ⟨function :: chain, forwarding.cons
          (forwardsTo_iff.2 ⟨call, member, routed⟩) ownReturns⟩

/-- The search follows a chain without repetitions to its end, as long as the
functions after the first one are not open. -/
theorem anyExternal_of_chain (legible : compilation.Legible)
    {visited rest : List compilation.Place} {function : compilation.Place}
    (forwarding :
      compilation.ForwardingChain noStatic function (function :: rest))
    (distinct : rest.Nodup) (fresh : ∀ other ∈ rest, other ∉ visited) :
    compilation.anyExternal noStatic visited
      (compilation.callsBelow function) = .ok true := by
  rw [anyExternal_eq_true_iff legible
    fun call member => legibleBelow_of_mem_callsBelow legible member]
  induction rest generalizing function visited with
  | nil =>
      obtain ⟨call, member, lowLevel | outside⟩ :=
        isExternal_iff.1 (forwarding.external function rfl)
      · exact ⟨call, member, Or.inl lowLevel⟩
      · exact ⟨call, member, Or.inr (Or.inl outside)⟩
  | cons next more inductionHypothesis =>
      obtain ⟨nextFresh, moreFresh⟩ := List.forall_mem_cons.1 fresh
      obtain ⟨notLater, moreDistinct⟩ := List.nodup_cons.1 distinct
      have forwards := (List.isChain_cons_cons.1 forwarding.linked).1
      obtain ⟨call, member, routed⟩ := forwardsTo_iff.1 forwards
      have returns : compilation.hasReturns next = true :=
        hasReturns_iff.2
          (forwarding.returning next (List.mem_cons_of_mem _ List.mem_cons_self))
      have stillFresh : ∀ other ∈ more, other ∉ next :: visited := by
        intro other isLater isOpen
        rcases List.mem_cons.1 isOpen with same | isVisited
        · exact notLater (same ▸ isLater)
        · exact moreFresh other isLater isVisited
      have below := (anyExternal_eq_true_iff legible
        fun call member => legibleBelow_of_mem_callsBelow legible member).2
          (inductionHypothesis (forwarding.of_append [function])
            moreDistinct stillFresh)
      exact ⟨call, member, Or.inr (Or.inr ⟨next, routed, returns, nextFresh, below⟩)⟩

private theorem forwards_eq_true_iff (legible : compilation.Legible)
    {function : compilation.Place} :
    compilation.forwards noStatic function = .ok true ↔
      ∃ chain, compilation.ForwardingChain noStatic function chain := by
  unfold forwards
  constructor
  · intro found
    split at found
    · next returns => exact exists_chain_of_anyExternal legible returns found
    · cases found
  · intro given
    obtain ⟨chain, forwarding⟩ := given
    obtain ⟨simple, shorter, distinct⟩ := forwarding.exists_nodup
    obtain ⟨rest, rfl⟩ := shorter.exists_cons
    obtain ⟨notLater, restDistinct⟩ := List.nodup_cons.1 distinct
    have returns := hasReturns_iff.2 (shorter.returning function List.mem_cons_self)
    rw [if_pos returns]
    apply anyExternal_of_chain legible shorter restDistinct
    intro other isLater isOpen
    rw [List.mem_singleton.1 isOpen] at isLater
    exact notLater isLater

/-- A call of a library function that is not low-level gets a class.  It is
high-level exactly when the function is not left out and a chain of functions
with return values leads from it to one that makes an external call, each
forwarding to the next one through a library, and it is internal otherwise. -/
theorem classify_library_call_iff_chain (compilation : Compilation)
    (legible : compilation.Legible) (noStatic : Bool)
    (call function : compilation.Place) (type : List Char)
    (isCall : (compilation.node call).kind = .functionCall)
    (invokes : compilation.Invokes (compilation.node call) function type)
    (library : TypeName.IsLibrary type)
    (plain : ¬ IsLowLevelCall (compilation.node call)) :
    ∃ high : Bool,
      compilation.classify noStatic (compilation.node call) =
        .ok { callType := if high then .highLevel else .internal } ∧
      (high = true ↔ compilation.Admissible noStatic function ∧
        ∃ chain, compilation.ForwardingChain noStatic function chain) := by
  obtain ⟨kind, lowLevel⟩ := exists_lowLevelKind (legible call)
  obtain ⟨high, isHigh⟩ := exists_isHighLevel legible noStatic (legible call)
  refine ⟨high, ?_, ?_⟩
  · unfold classify
    cases kind with
    | some kind => exact absurd ⟨isCall, kind, lowLevel⟩ plain
    | none =>
        rw [lowLevel, isHigh]
        cases high with
        | true => rfl
        | false => rfl
  · by_cases admissible : compilation.Admissible noStatic function
    · have routed := route_eq_library_iff.2 ⟨type, invokes, admissible, library⟩
      rw [isHighLevel, routed] at isHigh
      dsimp only at isHigh
      rw [← forwards_eq_true_iff legible, isHigh, Except.ok.injEq]
      exact (and_iff_right admissible).symm
    · constructor
      · intro same
        rw [same] at isHigh
        exact absurd (invokes.admissible_of_isHighLevel isHigh) admissible
      · intro both
        exact absurd both.1 admissible

/-! ### Two functions that forward to each other -/

/-- A call of the library function at a position. -/
def callLibrary (id : Nat) (name : String) (target : Nat) : Sample :=
  .call id
    (.member (id + 1) name (some target)
      (.identifier (id + 2) "Vaults" "type(library Vaults)" none))

/-- A function with a return value and the given calls. -/
def returning (id : Nat) (name : String) (calls : List Sample) : Sample :=
  .make .functionDefinition id [("name", .str name)]
    [("returnParameters",
        .one (.make .parameterList (id + 1) []
          [("parameters", .many [.stateVariable (id + 2) "" "uint256"])] none
          [])),
      ("body", .many calls)] none []

/-- `relay` calls `pay`, `pay` calls `relay` and then makes a transfer, and
`start` calls `relay`. -/
def vaultsUnits : List (String × Sample) :=
  [("src/Vaults.sol",
    .unit 0 (.str "src/Vaults.sol")
      [returning 1 "relay" [callLibrary 4 "pay" 7],
        returning 7 "pay" [callLibrary 10 "relay" 1, callTransfer 13],
        .function 16 "start" "nonpayable" [callLibrary 17 "relay" 1]])]

def vaults : Compilation :=
  Sample.compilation vaultsUnits

def relay : vaults.Place :=
  ⟨1, by decide⟩

def pay : vaults.Place :=
  ⟨7, by decide⟩

def callRelay : vaults.Place :=
  ⟨17, by decide⟩

private theorem read_vaults :
    (Reading.read (Sample.file vaultsUnits)).outcome = .ok vaults :=
  (rfl)

private theorem invokes_callLibrary {id : Nat} {name : String}
    {target : vaults.Place}
    (parent : Option Nat) (field : String) (listed : Bool)
    (isFunction : (vaults.node target).kind = .functionDefinition) :
    vaults.Invokes ((callLibrary id name target.val).node parent field listed)
      target "type(library Vaults)".toList where
  isFunction := isFunction
  named := by
    refine ⟨_, Node.callee?_of_memberAccess rfl rfl, rfl, ?_, rfl⟩
    exact dif_pos target.isLt

private theorem textual_callLibrary (id : Nat) (name : String) (target : Nat) :
    (callLibrary id name target).Textual :=
  Sample.textual_call _
    (Sample.textual_member _ _ _ (Sample.textual_identifier _ _ _ _))

private theorem textual_returning (id : Nat) (name : String)
    {calls : List Sample}
    (callsTextual : ∀ call ∈ calls, call.Textual) :
    (returning id name calls).Textual := by
  apply Sample.textual_make
  · intro parent field listed
    exact ⟨⟨name, rfl⟩, ⟨"", rfl⟩, ⟨"", rfl⟩, ⟨"", rfl⟩⟩
  · rw [List.flatMap_cons, List.flatMap_singleton]
    refine List.forall_mem_cons.2 ⟨?_, callsTextual⟩
    apply Sample.textual_make
    · intro parent field listed
      exact ⟨⟨"", rfl⟩, ⟨"", rfl⟩, ⟨"", rfl⟩, ⟨"", rfl⟩⟩
    · refine List.forall_mem_singleton.2 (Sample.textual_make ?_ ?_)
      · intro parent field listed
        exact ⟨⟨"", rfl⟩, ⟨"", rfl⟩, ⟨"", rfl⟩, ⟨"uint256", rfl⟩⟩
      · exact List.forall_mem_nil _

private theorem textual_vaults : vaults.Textual := by
  apply Sample.textual_compilation
  refine List.forall_mem_singleton.2 (Sample.textual_unit _ _ ?_)
  intro function isFunction
  simp only [List.mem_cons, List.not_mem_nil, or_false] at isFunction
  rcases isFunction with rfl | rfl | rfl
  · exact textual_returning _ _
      (List.forall_mem_singleton.2 (textual_callLibrary _ _ _))
  · exact textual_returning _ _
      (List.forall_mem_cons.2 ⟨textual_callLibrary _ _ _,
        List.forall_mem_singleton.2 (textual_callTransfer _)⟩)
  · exact Sample.textual_function _ _ _
      (List.forall_mem_singleton.2 (textual_callLibrary _ _ _))

private theorem isLibrary_vaults :
    TypeName.IsLibrary "type(library Vaults)".toList :=
  ⟨"Vaults)".toList, rfl⟩

private theorem forwardsTo_relay_pay : vaults.ForwardsTo false relay pay :=
  ⟨(callLibrary 4 "pay" pay.val).node (some 1) "body" true, _,
    .single (List.mem_cons_of_mem _ List.mem_cons_self), rfl,
    invokes_callLibrary _ _ _ rfl, by simp [Admissible], isLibrary_vaults⟩

private theorem forwardsTo_pay_relay : vaults.ForwardsTo false pay relay :=
  ⟨(callLibrary 10 "relay" relay.val).node (some 7) "body" true, _,
    .single (List.mem_cons_of_mem _ List.mem_cons_self), rfl,
    invokes_callLibrary _ _ _ rfl, by simp [Admissible], isLibrary_vaults⟩

private theorem isExternal_pay : vaults.IsExternal false pay := by
  refine ⟨(callTransfer 13).node (some 7) "body" true, .single ?_, rfl,
    Or.inl ⟨rfl, .transfer, lowLevelKind_callTransfer 13 _ _ _⟩⟩
  exact List.mem_cons_of_mem _ (List.mem_cons_of_mem _ List.mem_cons_self)

private theorem forwardingChain_relay_pay :
    vaults.ForwardingChain false relay [relay, pay] where
  starts := rfl
  linked := .cons_cons forwardsTo_relay_pay (.singleton pay)
  returning := by
    intro function member
    rcases List.mem_cons.1 member with rfl | isPay
    · exact List.cons_ne_nil _ _
    · rw [List.mem_singleton.1 isPay]
      exact List.cons_ne_nil _ _
  external := by
    intro last isLast
    cases isLast
    exact isExternal_pay

theorem classify_relay_high_level :
    (Reading.read (Sample.file vaultsUnits)).outcome = .ok vaults ∧
      vaults.Legible ∧ vaults.ForwardsTo false pay relay ∧
      vaults.ForwardingChain false relay [relay, pay] ∧
      vaults.classify false (vaults.node callRelay) =
        .ok { callType := .highLevel } := by
  have called : (vaults.node callRelay).callee? = some _ :=
    Node.callee?_of_memberAccess rfl rfl
  have plain : ¬ IsLowLevelCall (vaults.node callRelay) := by
    intro lowLevel
    obtain ⟨-, kind, found⟩ := lowLevel
    rw [lowLevelKind, called] at found
    cases found
  have invokes : vaults.Invokes (vaults.node callRelay) relay
      "type(library Vaults)".toList :=
    ⟨rfl, _, called, rfl, rfl, rfl⟩
  obtain ⟨high, classified, isHigh⟩ :=
    classify_library_call_iff_chain vaults textual_vaults.legible false callRelay
      relay _ rfl invokes isLibrary_vaults plain
  have holds : high = true :=
    isHigh.2 ⟨by simp [Admissible], [relay, pay], forwardingChain_relay_pay⟩
  rw [holds] at classified
  exact ⟨read_vaults, textual_vaults.legible, forwardsTo_pay_relay,
    forwardingChain_relay_pay, classified⟩

end Compilation

end ContractAtlas
