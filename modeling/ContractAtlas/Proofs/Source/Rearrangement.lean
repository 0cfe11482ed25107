/-
Trees of documents in another key order.

The visiting order of a node type fixes where the attributes that it names are
visited; the others are visited in document order.  An object in which at most
one of the others holds nodes therefore has its children in the same order
whatever the order of its keys, and so has the whole tree.
-/

import ContractAtlas.Proofs.Json.KeyOrder
import ContractAtlas.Proofs.Source.Objects

namespace ContractAtlas

theorem isSome_of_rel {α β : Type} {R : α → β → Prop} {found : Option α}
    {other : Option β} (related : Option.Rel R found other) :
    found.isSome = other.isSome := by
  cases related with
  | some _ => rfl
  | none => rfl

namespace Json

/-- The value is an object with a node type. -/
def isNode : Json → Bool
  | obj entries => (entries.lookup "nodeType").isSome
  | _ => false

/-- The value is a node or a list with a node in it. -/
def carriesNodes : Json → Bool
  | arr items => items.any isNode
  | value => value.isNode

theorem Reorders.isNode {value other : Json}
    (reorders : value.Reorders other) : value.isNode = other.isNode := by
  cases reorders with
  | scalar _ => rfl
  | arr _ => rfl
  | obj distinct sameKeys each same =>
      have found := (Reorders.obj distinct sameKeys each same).lookup "nodeType"
      exact isSome_of_rel found

private theorem Reorders.carriesNodes {value other : Json}
    (reorders : value.Reorders other) :
    value.carriesNodes = other.carriesNodes := by
  cases reorders with
  | scalar _ => rfl
  | arr each =>
      rw [Json.carriesNodes, Json.carriesNodes]
      induction each with
      | nil => rfl
      | cons sameItem _ inductionHypothesis =>
          rw [List.any_cons, List.any_cons, inductionHypothesis,
            sameItem.isNode]
  | obj distinct sameKeys each same =>
      exact (Reorders.obj distinct sameKeys each same).isNode

/-- The entries of a node's object that hold nodes and that the visiting order
of its type does not name. -/
def looseEntries (object : List (String × Json)) : List (String × Json) :=
  let order := visitOrder ((object.lookup "nodeType").getD (str ""))
  object.filter fun entry => !order.contains entry.1 && entry.2.carriesNodes

end Json

/-- What is known of a node is the same but for the order of keys.  The keys of
an object of base contracts are the ids of the bases, in their order. -/
structure NodeInfo.Reorders (info other : NodeInfo) : Prop where
  position : info.position = other.position
  parent : info.parent = other.parent
  field : info.field = other.field
  listed : info.listed = other.listed
  kind : info.kind = other.kind
  attributes : (Json.obj info.attributes).Reorders (.obj other.attributes)
  target : info.target = other.target
  bases : info.bases.Perm other.bases
  listedBases : (∀ keyed, info.attributes.lookup "linearizedBaseContracts" ≠
    some (.obj keyed)) → info.bases = other.bases

namespace Node

/-- The trees have the same shape, and what is known of each node is the same
but for the order of keys. -/
inductive Reorders : Node → Node → Prop
  | mk {info other : NodeInfo} {children others : List Node}
      (same : info.Reorders other)
      (below : List.Forall₂ Reorders children others) :
      Reorders (mk info children) (mk other others)

theorem Reorders.info {node other : Node} (reorders : node.Reorders other) :
    node.info.Reorders other.info := by
  cases reorders with
  | mk same _ => exact same

theorem Reorders.children {node other : Node}
    (reorders : node.Reorders other) :
    List.Forall₂ Reorders node.children other.children := by
  cases reorders with
  | mk _ below => exact below

/-! ### Building -/

theorem ofEntries_cons (entry : String × Json) (rest : List (String × Json)) :
    ofEntries (entry :: rest) = ofEntries [entry] ++ ofEntries rest := by
  obtain ⟨key, value⟩ := entry
  cases value with
  | arr items => simp only [ofEntries, List.append_nil]
  | null | bool | int | real | str | obj =>
      simp only [ofEntries, List.append_nil]

private theorem field_of_ofValue? {field : String} {listed : Bool}
    {value : Json}
    {node : Node} (built : ofValue? field listed value = some node) :
    node.info.field = field := by
  cases value with
  | obj entries =>
      rw [ofValue?] at built
      split at built
      · cases built
        rfl
      · cases built
  | null | bool | int | real | str | arr => cases built

private theorem field_of_mem_ofItems {key : String} {items : List Json}
    {node : Node}
    (member : node ∈ ofItems key items) : node.info.field = key := by
  induction items with
  | nil =>
      rw [ofItems] at member
      cases member
  | cons item rest inductionHypothesis =>
      rw [ofItems] at member
      rcases List.mem_append.1 member with here | later
      · exact field_of_ofValue? (Option.mem_toList.1 here)
      · exact inductionHypothesis later

private theorem field_of_mem_ofEntries {entry : String × Json} {node : Node}
    (member : node ∈ ofEntries [entry]) : node.info.field = entry.1 := by
  obtain ⟨key, value⟩ := entry
  cases value with
  | arr items =>
      simp only [ofEntries, List.append_nil] at member
      exact field_of_mem_ofItems member
  | null | bool | int | real | str | obj =>
      simp only [ofEntries, List.append_nil] at member
      exact field_of_ofValue? (Option.mem_toList.1 member)

private theorem filter_ofEntries (keeps : String → Bool)
    (entries : List (String × Json)) :
    (ofEntries entries).filter (fun child => keeps child.info.field) =
      ofEntries (entries.filter fun entry => keeps entry.1) := by
  induction entries with
  | nil => simp only [ofEntries, List.filter_nil]
  | cons entry rest inductionHypothesis =>
      rw [ofEntries_cons, List.filter_append, inductionHypothesis,
        List.filter_cons]
      cases kept : keeps entry.1 with
      | true =>
          rw [if_pos rfl, ofEntries_cons entry (rest.filter _),
            List.filter_eq_self.2]
          intro child member
          rw [field_of_mem_ofEntries member, kept]
      | false =>
          rw [if_neg Bool.false_ne_true, List.filter_eq_nil_iff.2,
            List.nil_append]
          intro child member
          rw [field_of_mem_ofEntries member, kept]
          exact Bool.false_ne_true

private theorem ofValue?_of_not_isNode {field : String} {listed : Bool}
    {value : Json}
    (isOther : value.isNode = false) : ofValue? field listed value = none := by
  cases value with
  | obj entries =>
      rw [Json.isNode, Option.isSome_eq_false_iff,
        Option.isNone_iff_eq_none] at isOther
      rw [ofValue?, isOther]
  | null | bool | int | real | str | arr => rfl

private theorem ofItems_of_not_isNode {key : String} {items : List Json}
    (areOther : items.any Json.isNode = false) : ofItems key items = [] := by
  induction items with
  | nil => rw [ofItems]
  | cons item rest inductionHypothesis =>
      rw [List.any_cons, Bool.or_eq_false_iff] at areOther
      rw [ofItems, ofValue?_of_not_isNode areOther.1,
        inductionHypothesis areOther.2]
      rfl

private theorem ofEntries_of_not_carriesNodes {entry : String × Json}
    (carries : entry.2.carriesNodes = false) : ofEntries [entry] = [] := by
  obtain ⟨key, value⟩ := entry
  cases value with
  | arr items =>
      simp only [ofEntries, List.append_nil]
      exact ofItems_of_not_isNode carries
  | null | bool | int | real | str | obj =>
      simp only [ofEntries, List.append_nil]
      rw [Json.carriesNodes] at carries
      · rw [ofValue?_of_not_isNode carries]
        rfl
      · intro items same
        cases same

private theorem ofEntries_filter_carriesNodes (entries : List (String × Json)) :
    ofEntries (entries.filter fun entry => entry.2.carriesNodes) =
      ofEntries entries := by
  induction entries with
  | nil => rfl
  | cons entry rest inductionHypothesis =>
      rw [ofEntries_cons entry rest, List.filter_cons]
      cases carries : entry.2.carriesNodes with
      | true => rw [if_pos rfl, ofEntries_cons, inductionHypothesis]
      | false =>
          rw [if_neg Bool.false_ne_true, inductionHypothesis,
            ofEntries_of_not_carriesNodes carries, List.nil_append]

private theorem arrange_ofEntries (order : List String)
    (entries : List (String × Json)) :
    arrange order (ofEntries entries) =
      (order.flatMap fun key =>
          ofEntries (entries.filter fun entry => entry.1 == key)) ++
        ofEntries (entries.filter fun entry =>
          !order.contains entry.1 && entry.2.carriesNodes) := by
  have named (key : String) :=
    filter_ofEntries (fun field => field == key) entries
  have loose := filter_ofEntries (fun field => !order.contains field)
    (entries.filter fun entry => entry.2.carriesNodes)
  rw [ofEntries_filter_carriesNodes, List.filter_filter] at loose
  rw [arrange, loose]
  simp only [named]

/-- The order of keys does not change the order of children if at most one key
outside the visiting order holds nodes. -/
theorem arrange_ofEntries_perm {order : List String}
    {entries others : List (String × Json)} (same : entries.Perm others)
    (distinct : (entries.map Prod.fst).Nodup)
    (settled : (entries.filter fun entry =>
      !order.contains entry.1 && entry.2.carriesNodes).length ≤ 1) :
    arrange order (ofEntries entries) = arrange order (ofEntries others) := by
  have named (key : String) :
      (entries.filter fun entry => entry.1 == key) =
        others.filter fun entry => entry.1 == key :=
    eq_of_perm_of_length_le_one (same.filter _)
      (length_filter_key_le_one distinct key)
  have loose := eq_of_perm_of_length_le_one (same.filter _) settled
  rw [arrange_ofEntries, arrange_ofEntries, loose]
  simp only [named]

private theorem forall₂_arrange (order : List String)
    {children others : List Node}
    (each : List.Forall₂ Reorders children others) :
    List.Forall₂ Reorders (arrange order children) (arrange order others) := by
  have filtered (keeps : String → Bool) :
      List.Forall₂ Reorders
        (children.filter fun child => keeps child.info.field)
        (others.filter fun child => keeps child.info.field) := by
    refine List.rel_filter ?_ each
    intro child other reorders
    dsimp only
    rw [reorders.info.field]
  rw [arrange, arrange]
  refine List.rel_append ?_ (filtered fun field => !order.contains field)
  induction order with
  | nil => exact .nil
  | cons key rest inductionHypothesis =>
      rw [List.flatMap_cons, List.flatMap_cons]
      exact List.rel_append (filtered fun field => field == key)
        inductionHypothesis

private theorem length_looseEntries {order : List String}
    {entries moved : List (String × Json)}
    (each : List.Forall₂ Json.EntryReorders entries moved) :
    (entries.filter fun entry =>
        !order.contains entry.1 && entry.2.carriesNodes).length =
      (moved.filter fun entry =>
        !order.contains entry.1 && entry.2.carriesNodes).length := by
  apply List.Forall₂.length_eq
  refine List.rel_filter ?_ each
  intro entry other sameEntry
  dsimp only
  rw [sameEntry.1, sameEntry.2.carriesNodes]

private theorem visitOrder_of_reorders {nodeType other : Json}
    (reorders : nodeType.Reorders other) :
    visitOrder nodeType = visitOrder other :=
  reorders.congr visitOrder (fun _ _ _ => rfl) fun _ _ _ => rfl

private theorem ofNodeType_of_reorders {nodeType other : Json}
    (reorders : nodeType.Reorders other) :
    Kind.ofNodeType nodeType = Kind.ofNodeType other :=
  reorders.congr Kind.ofNodeType (fun _ _ _ => rfl) fun _ _ _ => rfl

mutual

/-- Documents that differ in the order of keys build trees that differ in
nothing else. -/
theorem reorders_ofValue? (field : String) (listed : Bool) :
    (value other : Json) → value.Reorders other →
    (∀ object ∈ value.nodeObjects, (Json.looseEntries object).length ≤ 1) →
      List.Forall₂ Reorders (ofValue? field listed value).toList
        (ofValue? field listed other).toList
  | .obj entries, other, reorders, settled => by
      obtain ⟨moved, others, rfl, distinct, each, same⟩ := reorders.moved
      have found := reorders.lookup "nodeType"
      rw [Json.nodeObjects] at settled
      rw [ofValue?, ofValue?]
      cases isType : entries.lookup "nodeType" with
      | none =>
          rw [isType] at found
          generalize others.lookup "nodeType" = otherType at found ⊢
          cases found
          exact .nil
      | some nodeType =>
          rw [isType] at found settled
          generalize others.lookup "nodeType" = otherType at found ⊢
          cases found with
          | some sameType =>
          have loose := settled entries List.mem_cons_self
          rw [Json.looseEntries, isType] at loose
          -- First each value changes in its place, which is the induction,
          -- then the entries move as a whole, which the children do not show.
          have below := reorders_ofEntries entries moved each
            fun object member => settled object (List.mem_cons_of_mem _ member)
          have movedDistinct := distinct
          rw [(Json.forall₂_entryReorders_iff.1 each).1] at movedDistinct
          refine .cons (.mk ?_ ?_) .nil
          · exact ⟨rfl, rfl, rfl, rfl, ofNodeType_of_reorders sameType,
              reorders, rfl, .nil, fun _ => rfl⟩
          · rw [← visitOrder_of_reorders sameType,
              ← arrange_ofEntries_perm same movedDistinct
                (length_looseEntries each ▸ loose)]
            exact forall₂_arrange (visitOrder nodeType) below
  | .null, other, reorders, _ | .bool _, other, reorders, _
  | .int _, other, reorders, _ | .real _, other, reorders, _
  | .str _, other, reorders, _ => by
      cases reorders
      exact .nil
  | .arr _, other, reorders, _ => by
      cases reorders with
      | scalar filed => cases filed
      | arr _ => exact .nil

private theorem reorders_ofEntries : (entries others : List (String × Json)) →
    List.Forall₂ Json.EntryReorders entries others →
    (∀ object ∈ Json.nodeObjectsOfEntries entries,
      (Json.looseEntries object).length ≤ 1) →
      List.Forall₂ Reorders (ofEntries entries) (ofEntries others)
  | [], others, each, _ => by
      cases each
      rw [ofEntries]
      exact .nil
  | (key, .arr items) :: rest, others, each, settled => by
      cases each with
      | @cons _ other _ _ sameEntry later =>
      obtain ⟨otherKey, value⟩ := other
      obtain ⟨rfl, sameValue⟩ := sameEntry
      rw [Json.nodeObjectsOfEntries, List.forall_mem_append] at settled
      cases sameValue with
      | scalar filed => cases filed
      | arr sameItems =>
          rw [ofEntries, ofEntries]
          exact List.rel_append (reorders_ofItems key items _ sameItems settled.1)
            (reorders_ofEntries rest _ later settled.2)
  | (key, .obj entries) :: rest, others, each, settled => by
      cases each with
      | @cons _ other _ _ sameEntry later =>
      obtain ⟨otherKey, value⟩ := other
      obtain ⟨rfl, sameValue⟩ := sameEntry
      obtain ⟨_, objects, isObject, -⟩ := Json.Reorders.moved sameValue
      dsimp only at isObject sameValue
      subst isObject
      simp only [Json.nodeObjectsOfEntries, List.forall_mem_append] at settled
      simp only [ofEntries]
      exact List.rel_append
        (reorders_ofValue? key false (.obj entries) _ sameValue settled.1)
        (reorders_ofEntries rest _ later settled.2)
  | (key, .null) :: rest, others, each, settled
  | (key, .bool _) :: rest, others, each, settled
  | (key, .int _) :: rest, others, each, settled
  | (key, .real _) :: rest, others, each, settled
  | (key, .str _) :: rest, others, each, settled => by
      cases each with
      | @cons _ other _ _ sameEntry later =>
      obtain ⟨otherKey, value⟩ := other
      obtain ⟨rfl, sameValue⟩ := sameEntry
      cases sameValue
      simp only [ofEntries, Json.nodeObjectsOfEntries, ofValue?,
        Json.nodeObjects, Option.toList, List.nil_append] at settled ⊢
      exact reorders_ofEntries rest _ later settled

private theorem reorders_ofItems (key : String) : (items others : List Json) →
    List.Forall₂ Json.Reorders items others →
    (∀ object ∈ Json.nodeObjectsOfItems items,
      (Json.looseEntries object).length ≤ 1) →
      List.Forall₂ Reorders (ofItems key items) (ofItems key others)
  | [], others, each, _ => by
      cases each
      rw [ofItems]
      exact .nil
  | item :: rest, others, each, settled => by
      cases each with
      | cons sameItem later =>
      rw [Json.nodeObjectsOfItems, List.forall_mem_append] at settled
      rw [ofItems, ofItems]
      exact List.rel_append
        (reorders_ofValue? key true item _ sameItem settled.1)
        (reorders_ofItems key rest _ later settled.2)

end

/-! ### Numbering -/

mutual

theorem Reorders.preorder : (node other : Node) → node.Reorders other →
    List.Forall₂ Reorders node.preorder other.preorder
  | mk info children, mk other others, reorders => by
      rw [Node.preorder, Node.preorder]
      exact .cons reorders
        (forall₂_preorderOfAll children others reorders.children)

theorem forall₂_preorderOfAll : (nodes others : List Node) →
    List.Forall₂ Reorders nodes others →
      List.Forall₂ Reorders (preorderOfAll nodes) (preorderOfAll others)
  | [], others, each => by
      cases each
      rw [preorderOfAll]
      exact .nil
  | node :: rest, others, each => by
      cases each with
      | cons reorders later =>
      rw [preorderOfAll, preorderOfAll]
      exact List.rel_append (reorders.preorder node _)
        (forall₂_preorderOfAll rest _ later)

end

theorem Reorders.size {node other : Node} (reorders : node.Reorders other) :
    node.size = other.size := by
  rw [size_eq_length_preorder, size_eq_length_preorder]
  exact (reorders.preorder node other).length_eq

mutual

theorem Reorders.number (parent : Option Nat) (position : Nat) :
    (node other : Node) → node.Reorders other →
      (number parent position node).Reorders (number parent position other)
  | mk info children, mk other others, reorders => by
      rw [Node.number, Node.number]
      refine .mk ?_ (forall₂_numberAll (some position) (position + 1) children
        others reorders.children)
      exact { reorders.info with position := rfl, parent := rfl }

theorem forall₂_numberAll (parent : Option Nat) (position : Nat) :
    (nodes others : List Node) → List.Forall₂ Reorders nodes others →
      List.Forall₂ Reorders (numberAll parent position nodes)
        (numberAll parent position others)
  | [], others, each => by
      cases each
      rw [numberAll]
      exact .nil
  | node :: rest, others, each => by
      cases each with
      | cons reorders later =>
      rw [numberAll, numberAll, reorders.size]
      exact .cons (reorders.number parent position node _)
        (forall₂_numberAll parent _ rest _ later)

end

/-! ### Looking into nodes -/

section

variable {node other : Node} (reorders : node.Reorders other)
include reorders

theorem Reorders.kind : node.kind = other.kind :=
  reorders.info.kind

theorem Reorders.attributeOr (key : String) {fallback : Json}
    (same : fallback.Reorders fallback) :
    (node.attributeOr key fallback).Reorders
      (other.attributeOr key fallback) :=
  .getD (reorders.info.attributes.lookup key) same

theorem Reorders.textOr (key fallback : String) :
    (node.textOr key fallback).Reorders (other.textOr key fallback) :=
  reorders.attributeOr key (Json.reorders_str fallback)

theorem Reorders.id : node.id.Reorders other.id :=
  reorders.attributeOr "id" Json.reorders_null

theorem Reorders.field? (key : String) :
    Option.Rel Reorders (node.field? key) (other.field? key) := by
  have each := reorders.children
  rw [Node.field?, Node.field?]
  generalize node.children = children, other.children = others at each ⊢
  induction each with
  | nil => exact .none
  | cons same _ inductionHypothesis =>
      rw [List.find?_cons, List.find?_cons, same.info.field, same.info.listed]
      split
      · exact .some same
      · exact inductionHypothesis

theorem Reorders.name? : Option.Rel Json.Reorders node.name? other.name? := by
  have ownName := Option.Rel.some (reorders.textOr "name" "")
  rw [Node.name?, Node.name?, ← reorders.kind]
  cases node.kind with
  | userDefinedTypeName =>
      have found := reorders.field? "pathNode"
      generalize node.field? "pathNode" = path,
        other.field? "pathNode" = otherPath at found ⊢
      cases found with
      | none => exact ownName
      | some samePath =>
          dsimp only
          rw [← samePath.kind]
          split
          · exact .some (samePath.textOr "name" "")
          · exact ownName
  | contractDefinition | functionDefinition | modifierDefinition
  | variableDeclaration | structDefinition | enumDefinition | eventDefinition
  | errorDefinition | valueTypeDefinition | elementaryTypeName | identifierPath
  | identifier => exact ownName
  | sourceUnit | parameterList | modifierInvocation | memberAccess
  | functionCallOptions | functionCall | plain => exact .none

theorem Reorders.isLegacyOption :
    node.isLegacyOption = other.isLegacyOption := by
  rw [Node.isLegacyOption, Node.isLegacyOption, reorders.kind,
    reorders.info.target, memberName, memberName,
    (reorders.textOr "memberName" "").isOneOf]

end

private theorem rel_bind {α β γ δ : Type} {R : α → β → Prop} {S : γ → δ → Prop}
    {found : Option α} {other : Option β} (related : Option.Rel R found other)
    {next : α → Option γ} {nextOther : β → Option δ}
    (follows : ∀ first second, found = some first → R first second →
      Option.Rel S (next first) (nextOther second)) :
    Option.Rel S (found.bind next) (other.bind nextOther) := by
  cases related with
  | none => exact .none
  | some same => exact follows _ _ rfl same

theorem Reorders.unwrapOptions {expression other : Node}
    (reorders : expression.Reorders other) :
    Option.Rel Reorders expression.unwrapOptions other.unwrapOptions := by
  induction size : expression.size using Nat.strongRecOn
    generalizing expression other with
  | ind _ inductionHypothesis =>
      subst size
      have below (node second : Node) (same : node.Reorders second)
          (smaller : node.size ≤ expression.size) :
          Option.Rel Reorders (node.expression?.bind Node.unwrapOptions)
            (second.expression?.bind Node.unwrapOptions) := by
        refine rel_bind (same.field? "expression") ?_
        intro inner otherInner found sameInner
        have shrinks := size_lt_of_field? found
        exact inductionHypothesis inner.size (by omega) sameInner rfl
      by_cases isOptions : expression.kind = .functionCallOptions
      · rw [unwrapOptions_of_options isOptions,
          unwrapOptions_of_options (reorders.kind.symm.trans isOptions)]
        exact below expression other reorders (Nat.le_refl _)
      · by_cases isCall : expression.kind = .functionCall
        · rw [unwrapOptions_of_call isCall,
            unwrapOptions_of_call (reorders.kind.symm.trans isCall)]
          refine rel_bind (reorders.field? "expression") ?_
          intro access otherAccess found sameAccess
          have shrinks := size_lt_of_field? found
          rw [sameAccess.isLegacyOption]
          split
          · exact below access otherAccess sameAccess (Nat.le_of_lt shrinks)
          · exact .none
        · have noOptions := isOptions
          have noCall := isCall
          rw [reorders.kind] at noOptions noCall
          rw [unwrapOptions_of_plain isOptions isCall,
            unwrapOptions_of_plain noOptions noCall, reorders.kind]
          split
          · exact .some reorders
          · exact .none

theorem Reorders.referencedPosition? {node other : Node}
    (reorders : node.Reorders other) :
    node.referencedPosition? = other.referencedPosition? := by
  rw [Node.referencedPosition?, Node.referencedPosition?, reorders.kind,
    reorders.info.target]
  split
  · have found : Option.Rel Reorders node.callee? other.callee? :=
      rel_bind (reorders.field? "expression")
        fun _ _ _ same => same.unwrapOptions
    generalize node.callee? = callee, other.callee? = otherCallee at found ⊢
    cases found with
    | none => rfl
    | some same => exact same.info.target
  · rfl

end Node

end ContractAtlas
