/-
Exported reports.

The text of a result in JSON reads back as the document of the result.  What
has to be known of the result is that it can be written at all: its sources
can be read, the names in its call trees are texts, which makes them keys of
their own, and nothing in it is a binary number.  The maps of the document
then have different texts as their keys.
-/

import ContractAtlas.Proofs.Call.InternalFunctions
import ContractAtlas.Proofs.Json.RoundTrip
import ContractAtlas.Proofs.Source.Readable
import ContractAtlas.Report.Export

namespace ContractAtlas

/-! ### Documents -/

def Datum.IsExact (datum : Datum) : Prop :=
  datum.value.isExact = true

namespace Document

mutual

/-- The values are exact, and the keys of each record are different texts. -/
def Exact : Document → Prop
  | value datum => datum.IsExact
  | list items => ExactItems items
  | record entries =>
      (∀ entry ∈ entries, ∃ text, entry.1 = .str text) ∧
        (entries.map fun entry => entry.1.keyText).Nodup ∧ ExactEntries entries

def ExactItems : List Document → Prop
  | [] => True
  | item :: rest => Exact item ∧ ExactItems rest

def ExactEntries : List (Json × Document) → Prop
  | [] => True
  | (_, entry) :: rest => Exact entry ∧ ExactEntries rest

end

private theorem exactItems_iff {items : List Document} :
    ExactItems items ↔ ∀ item ∈ items, item.Exact := by
  induction items with
  | nil => exact ⟨fun _ => List.forall_mem_nil _, fun _ => trivial⟩
  | cons item rest inductionHypothesis =>
      rw [ExactItems, List.forall_mem_cons, inductionHypothesis]

private theorem exactEntries_iff {entries : List (Json × Document)} :
    ExactEntries entries ↔ ∀ entry ∈ entries, entry.2.Exact := by
  induction entries with
  | nil => exact ⟨fun _ => List.forall_mem_nil _, fun _ => trivial⟩
  | cons entry rest inductionHypothesis =>
      obtain ⟨key, document⟩ := entry
      rw [ExactEntries, List.forall_mem_cons, inductionHypothesis]

private theorem map_jsonEntries (entries : List (Json × Document)) :
    (jsonEntries entries).map (fun entry => entry.1) =
      entries.map fun entry => entry.1.keyText := by
  induction entries with
  | nil => rfl
  | cons entry rest inductionHypothesis =>
      obtain ⟨key, document⟩ := entry
      rw [jsonEntries, List.map_cons, List.map_cons, inductionHypothesis]

mutual

private theorem isExact_json : (document : Document) → document.Exact →
    document.json.isExact = true
  | value _, exact => exact
  | list items, exact => isExact_jsonItems items exact
  | record entries, ⟨_, distinct, exact⟩ => by
      rw [json, Json.isExact, map_jsonEntries, decide_eq_true distinct,
        Bool.true_and]
      exact isExact_jsonEntries entries exact

private theorem isExact_jsonItems : (items : List Document) → ExactItems items →
    Json.areExactItems (jsonItems items) = true
  | [], _ => rfl
  | item :: rest, ⟨exact, exactRest⟩ =>
      Bool.and_eq_true_iff.2
        ⟨isExact_json item exact, isExact_jsonItems rest exactRest⟩

private theorem isExact_jsonEntries : (entries : List (Json × Document)) →
    ExactEntries entries → Json.areExactEntries (jsonEntries entries) = true
  | [], _ => rfl
  | (_, entry) :: rest, ⟨exact, exactRest⟩ =>
      Bool.and_eq_true_iff.2
        ⟨isExact_json entry exact, isExact_jsonEntries rest exactRest⟩

end

@[simp] theorem exact_value {datum : Datum} :
    (value datum).Exact ↔ datum.IsExact := Iff.rfl

@[simp] theorem exact_null : null.Exact := rfl

@[simp] theorem exact_text (content : String) : (text content).Exact := rfl

@[simp] theorem exact_count (number : Nat) : (count number).Exact := rfl

@[simp] theorem exact_flag (isSet : Bool) : (flag isSet).Exact := rfl

@[simp] theorem exact_list {items : List Document} :
    (list items).Exact ↔ ∀ item ∈ items, item.Exact :=
  exactItems_iff

@[simp] theorem exact_fields {entries : List (String × Document)} :
    (fields entries).Exact ↔
      (entries.map fun entry => entry.1).Nodup ∧
        ∀ entry ∈ entries, entry.2.Exact := by
  rw [fields, Exact, exactEntries_iff, List.forall_mem_map, List.forall_mem_map,
    List.map_map]
  exact ⟨fun exact => exact.2, fun exact => ⟨fun entry _ => ⟨entry.1, rfl⟩, exact⟩⟩

end Document

private theorem Json.eq_str_of_key? {value : Json} {text : String}
    (hasKey : value.key? = some (.text text)) : value = .str text := by
  cases value with
  | str content =>
      cases hasKey
      rfl
  | real number =>
      rw [Json.key?] at hasKey
      split at hasKey
      · cases hasKey
      · cases hasKey
  | _ => cases hasKey

/-! ### What a report shows -/

structure Callable.Exact (callable : Callable) : Prop where
  kind : callable.kind.IsExact
  contract : callable.contract.IsExact
  path : callable.path.IsExact
  mutability : callable.mutability.IsExact

/-- The name is a text: it is used as a key. -/
structure CallInfo.Exact (info : CallInfo) : Prop where
  name : ∃ text, info.name.value = .str text
  declaration : ∀ callable ∈ info.declaration, callable.Exact

structure Member.Exact (member : Member) : Prop where
  name : member.info.name.IsExact
  size : (Datum.plain member.info.size).IsExact
  visibility : member.info.visibility.IsExact
  mutability : member.info.mutability.IsExact
  path : member.info.path.IsExact
  parent : ∀ parent ∈ member.info.parent, parent.name.IsExact

structure Constant.Exact (constant : Constant) : Prop where
  name : constant.name.IsExact
  type : constant.type.IsExact
  visibility : constant.visibility.IsExact
  mutability : constant.mutability.IsExact
  path : constant.path.IsExact

/-- A layout maps keys to members, so no two of its slots have the same key. -/
structure Layout.Exact (layout : Layout) : Prop where
  keys : (layout.slots.map fun slot => slot.key).Nodup
  members : ∀ slot ∈ layout.slots, ∀ member ∈ slot.members, member.Exact
  constants : ∀ constant ∈ layout.constants, constant.Exact

/-- The source can be read. -/
structure Element.Exact (element : Element) : Prop where
  name : element.name.IsExact
  source : ∃ text, element.source = .ok text
  path : element.path.IsExact

structure Elements.Exact (elements : Elements) : Prop where
  events : ∀ element ∈ elements.events, element.Exact
  structs : ∀ element ∈ elements.structs, element.Exact
  errors : ∀ element ∈ elements.errors, element.Exact
  enums : ∀ element ∈ elements.enums, element.Exact
  valueTypes : ∀ element ∈ elements.valueTypes, element.Exact

structure ContractReport.Exact (report : ContractReport) : Prop where
  name : report.name.IsExact
  path : report.path.IsExact
  roots : ∀ root ∈ report.roots, ∀ node ∈ root.walk, node.info.Exact
  layout : ∀ layout ∈ report.layout, layout.Exact
  layoutError : report.layoutError.Exact
  elements : report.elements.Exact

structure RunSummary.Exact (summary : RunSummary) : Prop where
  succeeded : ∀ name ∈ summary.succeeded, name.IsExact
  skipped : ∀ name ∈ summary.skipped, name.IsExact
  failed : ∀ failure ∈ summary.failed, failure.1.IsExact ∧ failure.2.IsExact

structure RunResult.Exact (result : RunResult) : Prop where
  summary : result.summary.Exact
  reports : ∀ report ∈ result.reports, report.Exact

/-! ### Layouts and elements -/

theorem Member.Exact.document {member : Member} (exact : member.Exact) :
    member.document.Exact := by
  cases hasParent : member.info.parent with
  | none =>
      simp [Member.document, hasParent, exact.name, exact.size,
        exact.visibility, exact.mutability, exact.path]
  | some parent =>
      simp [Member.document, hasParent, exact.name, exact.size,
        exact.visibility, exact.mutability, exact.path,
        exact.parent parent hasParent]

theorem Constant.Exact.document {constant : Constant}
    (exact : constant.Exact) : constant.document.Exact := by
  simp [Constant.document, exact.name, exact.type, exact.visibility,
    exact.mutability, exact.path]

theorem Layout.Exact.document {layout : Layout} (exact : layout.Exact) :
    layout.document.Exact := by
  have slots : (Document.fields (layout.slots.map fun slot =>
      (slot.key, .list (slot.members.map Member.document)))).Exact := by
    rw [Document.exact_fields, List.map_map, List.forall_mem_map]
    refine ⟨exact.keys, ?_⟩
    intro slot isSlot
    rw [Document.exact_list, List.forall_mem_map]
    intro member isMember
    exact (exact.members slot isSlot member isMember).document
  have constants : ∀ document ∈ layout.constants.map Constant.document,
      document.Exact := by
    rw [List.forall_mem_map]
    intro constant isConstant
    exact (exact.constants constant isConstant).document
  rw [Layout.document, Document.exact_fields]
  refine ⟨by simp, ?_⟩
  rw [List.forall_mem_cons, List.forall_mem_singleton]
  exact ⟨slots, Document.exact_list.2 constants⟩

/-- A function that succeeds on each item of a list succeeds on the list. -/
theorem exists_mapM {α β : Type} {f : α → Except Fault β} {R : α → β → Prop}
    {items : List α} (each : ∀ item ∈ items, ∃ result, f item = .ok result ∧
      R item result) :
    ∃ results, items.mapM f = .ok results ∧ List.Forall₂ R items results := by
  induction items with
  | nil => exact ⟨[], rfl, .nil⟩
  | cons item rest inductionHypothesis =>
      obtain ⟨result, made, related⟩ := each item List.mem_cons_self
      obtain ⟨results, others, allRelated⟩ := inductionHypothesis
        fun other member => each other (List.mem_cons_of_mem item member)
      refine ⟨result :: results, ?_, .cons related allRelated⟩
      rw [List.mapM_cons, made, others]
      rfl

private theorem exists_documents {α : Type} {f : α → Except Fault Document}
    {items : List α}
    (each : ∀ item ∈ items, ∃ document, f item = .ok document ∧
      document.Exact) :
    ∃ documents, items.mapM f = .ok documents ∧
      (Document.list documents).Exact := by
  obtain ⟨documents, made, exact⟩ := exists_mapM each
  refine ⟨documents, made, Document.exact_list.2 ?_⟩
  intro document member
  obtain ⟨item, -, isExact⟩ := exists_left_of_forall₂ exact member
  exact isExact

private theorem Element.Exact.exists_document {element : Element}
    (exact : element.Exact) :
    ∃ document, element.document = .ok document ∧ document.Exact := by
  obtain ⟨text, readable⟩ := exact.source
  rw [Element.document, readable]
  refine ⟨_, rfl, ?_⟩
  simp [exact.name, exact.path]

private theorem Elements.Exact.exists_document {elements : Elements}
    (exact : elements.Exact) :
    ∃ document, elements.document = .ok document ∧ document.Exact := by
  have each : ∀ declared : List Element,
      (∀ element ∈ declared, element.Exact) →
        ∃ documents, declared.mapM Element.document = .ok documents ∧
          (Document.list documents).Exact := fun declared areExact =>
    exists_documents fun element member =>
      (areExact element member).exists_document
  obtain ⟨events, madeEvents, exactEvents⟩ := each _ exact.events
  obtain ⟨structs, madeStructs, exactStructs⟩ := each _ exact.structs
  obtain ⟨errors, madeErrors, exactErrors⟩ := each _ exact.errors
  obtain ⟨enums, madeEnums, exactEnums⟩ := each _ exact.enums
  obtain ⟨valueTypes, madeTypes, exactTypes⟩ := each _ exact.valueTypes
  rw [Elements.document, madeEvents, madeStructs, madeErrors, madeEnums,
    madeTypes]
  refine ⟨_, rfl, ?_⟩
  rw [Document.exact_fields]
  refine ⟨by simp, ?_⟩
  simp only [List.forall_mem_cons, List.not_mem_nil, false_implies,
    implies_true, and_true]
  exact ⟨exactEvents, exactStructs, exactErrors, exactEnums, exactTypes⟩

/-! ### Call trees -/

namespace CallNode

private theorem exact_kind {info : CallInfo} (exact : info.Exact) :
    (kind (mk info [])).IsExact ∧ (contractName (mk info [])).IsExact ∧
      (sourcePath (mk info [])).IsExact := by
  obtain ⟨declaration, name, callType, lowLevel, recursive⟩ := info
  cases declaration with
  | some callable =>
      have isExact := exact.declaration callable rfl
      exact ⟨isExact.kind, isExact.contract, isExact.path⟩
  | none =>
      cases lowLevel with
      | none => exact ⟨rfl, rfl, rfl⟩
      | some lowLevel => exact ⟨rfl, rfl, rfl⟩

private theorem exact_name {info : CallInfo} (exact : info.Exact) :
    info.name.IsExact := by
  obtain ⟨text, isText⟩ := exact.name
  rw [Datum.IsExact, isText]
  rfl

mutual

private theorem exact_document : (node : CallNode) →
    (∀ other ∈ node.walk, other.info.Exact) → node.document.Exact
  | mk info children, exact => by
      rw [walk_eq_cons, List.forall_mem_cons] at exact
      obtain ⟨isExact, exactBelow⟩ := exact
      have below := exact_documents children exactBelow
      obtain ⟨kind, contract, path⟩ := exact_kind isExact
      rw [document, Document.exact_fields]
      refine ⟨by simp, ?_⟩
      simp only [List.forall_mem_cons, List.not_mem_nil, false_implies,
        implies_true, and_true]
      refine ⟨exact_name isExact, kind, contract, rfl, ?_, path, rfl,
        Document.exact_list.2 below⟩
      cases info.lowLevel with
      | none => rfl
      | some lowLevel => rfl

private theorem exact_documents : (nodes : List CallNode) →
    (∀ other ∈ visit nodes, other.info.Exact) →
      ∀ document ∈ documents nodes, document.Exact
  | [], _ => List.forall_mem_nil _
  | node :: rest, exact => by
      rw [visit_cons, List.forall_mem_append] at exact
      rw [documents, List.forall_mem_cons]
      exact ⟨exact_document node exact.1, exact_documents rest exact.2⟩

end

/-- The functions are noted under different keys, each the key of its name;
names and callers are texts. -/
structure Noted (reached : List Reached) : Prop where
  named : ∀ function ∈ reached, ∃ text, function.name = .str text ∧
    function.key = .text text
  callers : ∀ function ∈ reached, ∀ caller ∈ function.callers,
    ∃ text, caller.2 = .str text
  distinct : (reached.map fun function => function.key).Nodup

private theorem exists_internalFunctions {roots : List CallNode}
    (exact : ∀ root ∈ roots, ∀ node ∈ root.walk, node.info.Exact) :
    ∃ reached, internalFunctions roots = .ok reached ∧ Noted reached := by
  have rootText : ∀ root ∈ roots, ∃ text, root.name = .str text := by
    intro root isRoot
    have exactRoot := exact root isRoot
    rw [walk_eq_cons, List.forall_mem_cons] at exactRoot
    exact exactRoot.1.name
  have nodeText : ∀ root ∈ roots, ∀ node, root.ReachesInside node →
      ∃ text, node.name = .str text := by
    intro root isRoot node reaches
    obtain ⟨position, -, found⟩ := reaches.below
    exact (exact root isRoot node (mem_walk_of_nodeAt? found)).name
  have keyed : NamesHaveKeys roots := by
    intro root isRoot node reaches
    obtain ⟨name, isName⟩ := nodeText root isRoot node reaches
    obtain ⟨caller, isCaller⟩ := rootText root isRoot
    rw [isName, isCaller]
    exact ⟨Option.some_ne_none _, Option.some_ne_none _⟩
  rcases internalFunctions_cases roots with ⟨-, table, found, maps⟩ | ⟨unkeyed, -⟩
  · refine ⟨table, found, ?_, ?_, maps.distinct⟩
    · intro entry isEntry
      obtain ⟨root, isRoot, node, reaches, sameKey⟩ :=
        (maps.mem_keys_iff entry.key).1 (List.mem_map_of_mem isEntry)
      obtain ⟨text, isText⟩ := nodeText root isRoot node reaches
      have isKey : entry.key = .text text := by
        rw [isText] at sameKey
        exact (Option.some.inj sameKey).symm
      refine ⟨text, Json.eq_str_of_key? ?_, isKey⟩
      rw [maps.named entry isEntry, isKey]
    · intro entry isEntry caller isCaller
      obtain ⟨root, isRoot, -, -, -, sameKey⟩ :=
        (maps.mem_callers_iff entry isEntry caller.1).1
          (List.mem_map_of_mem isCaller)
      obtain ⟨text, isText⟩ := rootText root isRoot
      refine ⟨text, Json.eq_str_of_key? ?_⟩
      rw [maps.callersNamed entry isEntry caller isCaller, ← sameKey, isText]
      rfl
  · exact absurd keyed unkeyed

private theorem exists_insertSorted (text : String) {values : List Json}
    (texts : ∀ value ∈ values, ∃ text, value = .str text) :
    ∃ sorted, insertSorted (.str text) values = .ok sorted ∧
      ∀ value ∈ sorted, ∃ text, value = .str text := by
  induction values with
  | nil => exact ⟨_, rfl, List.forall_mem_singleton.2 ⟨text, rfl⟩⟩
  | cons value rest inductionHypothesis =>
      obtain ⟨⟨other, rfl⟩, textsRest⟩ := List.forall_mem_cons.1 texts
      obtain ⟨sorted, made, areTexts⟩ := inductionHypothesis textsRest
      have ordered : precedes (.str text) (.str other) =
          .ok (decide (text < other)) := rfl
      rw [insertSorted, ordered, made]
      cases decide (text < other) with
      | true =>
          exact ⟨_, rfl, List.forall_mem_cons.2 ⟨⟨text, rfl⟩, texts⟩⟩
      | false =>
          exact ⟨_, rfl, List.forall_mem_cons.2 ⟨⟨other, rfl⟩, areTexts⟩⟩

private theorem exists_sortValues {values : List Json}
    (texts : ∀ value ∈ values, ∃ text, value = .str text) :
    ∃ sorted, sortValues values = .ok sorted ∧
      ∀ value ∈ sorted, ∃ text, value = .str text := by
  induction values with
  | nil => exact ⟨[], rfl, List.forall_mem_nil _⟩
  | cons value rest inductionHypothesis =>
      obtain ⟨⟨text, rfl⟩, textsRest⟩ := List.forall_mem_cons.1 texts
      obtain ⟨sorted, made, areTexts⟩ := inductionHypothesis textsRest
      rw [sortValues, made]
      exact exists_insertSorted text areTexts

private theorem Noted.nodup_names {reached : List Reached}
    (noted : Noted reached) :
    (reached.map fun function => function.name.keyText).Nodup := by
  have sameKeys : (reached.map fun function => function.key) =
      (reached.map fun function => function.name.keyText).map .text := by
    rw [List.map_map]
    apply List.map_congr_left
    intro function member
    obtain ⟨text, isText, isKey⟩ := noted.named function member
    rw [Function.comp_apply, isText, isKey]
    rfl
  have distinct := noted.distinct
  rw [sameKeys] at distinct
  exact distinct.of_map _

/-- The entry of a function: its name with its callers in order. -/
def Reached.entry (function : Reached) : Except Fault (Json × Document) := do
  let callers ← sortValues (function.callers.map fun caller => caller.2)
  return (function.name,
    .list (callers.map fun caller => .value (.plain caller)))

private theorem internalDocument_eq (roots : List CallNode) :
    internalDocument roots =
      (internalFunctions roots >>= fun reached =>
        Document.record <$> reached.mapM Reached.entry) := by
  rw [internalDocument]
  cases internalFunctions roots with
  | error fault => rfl
  | ok reached =>
      show (reached.mapM Reached.entry >>= fun entries =>
        pure (Document.record entries)) = Document.record <$> _
      cases reached.mapM Reached.entry with
      | error fault => rfl
      | ok entries => rfl

private theorem exists_entries {reached : List Reached}
    (noted : Noted reached) :
    ∃ entries, reached.mapM Reached.entry = .ok entries ∧
      List.Forall₂ (fun function entry => entry.1 = function.name ∧
        entry.2.Exact) reached entries := by
  apply exists_mapM
  intro function member
  obtain ⟨callers, sorted, texts⟩ := exists_sortValues
    (List.forall_mem_map.2 (noted.callers function member))
  rw [Reached.entry, sorted]
  refine ⟨_, rfl, rfl, ?_⟩
  rw [Document.exact_list, List.forall_mem_map]
  intro caller isCaller
  obtain ⟨text, rfl⟩ := texts caller isCaller
  rfl

private theorem exists_internalDocument {roots : List CallNode}
    (exact : ∀ root ∈ roots, ∀ node ∈ root.walk, node.info.Exact) :
    ∃ document, internalDocument roots = .ok document ∧ document.Exact := by
  obtain ⟨reached, found, noted⟩ := exists_internalFunctions exact
  obtain ⟨entries, made, shows⟩ := exists_entries noted
  refine ⟨.record entries, ?_, ?_, ?_, ?_⟩
  · rw [internalDocument_eq, found]
    show Document.record <$> reached.mapM Reached.entry = _
    rw [made]
    rfl
  · intro entry member
    obtain ⟨function, isFunction, sameName, -⟩ :=
      exists_left_of_forall₂ shows member
    obtain ⟨text, isText, -⟩ := noted.named function isFunction
    exact ⟨text, sameName.trans isText⟩
  · have sameKeys : (reached.map fun function => function.name.keyText) =
        entries.map fun entry => entry.1.keyText :=
      forall₂_eq_iff.1 (shows.imp fun function entry same =>
        congrArg Json.keyText same.1.symm)
    rw [← sameKeys]
    exact noted.nodup_names
  · rw [Document.exactEntries_iff]
    intro entry member
    obtain ⟨function, -, -, isExact⟩ := exists_left_of_forall₂ shows member
    exact isExact

end CallNode

/-! ### Results -/

private theorem CallStats.exact_document (stats : CallStats) :
    stats.document.Exact := by
  simp [CallStats.document]

private theorem Elements.exact_counts (elements : Elements) :
    elements.counts.Exact := by
  simp [Elements.counts]

private theorem ContractReport.exact_functionDocument {root : CallNode}
    (exact : ∀ node ∈ root.walk, node.info.Exact) :
    (functionDocument root).Exact := by
  have tree := CallNode.exact_document root exact
  rw [CallNode.walk_eq_cons, List.forall_mem_cons] at exact
  rw [functionDocument, Document.exact_fields]
  refine ⟨by simp, ?_⟩
  simp only [List.forall_mem_cons, List.not_mem_nil, false_implies,
    implies_true, and_true]
  refine ⟨CallNode.exact_name exact.1, ?_, CallStats.exact_document _, tree⟩
  cases declared : root.info.declaration with
  | none => rfl
  | some callable => exact (exact.1.declaration callable declared).mutability

private theorem ContractReport.Exact.exists_document {report : ContractReport}
    (exact : report.Exact) :
    ∃ document, report.document = .ok document ∧ document.Exact := by
  obtain ⟨elements, madeElements, exactElements⟩ :=
    exact.elements.exists_document
  obtain ⟨internal, madeInternal, exactInternal⟩ :=
    CallNode.exists_internalDocument exact.roots
  have functions :
      (Document.list (report.roots.map functionDocument)).Exact := by
    rw [Document.exact_list, List.forall_mem_map]
    intro root isRoot
    exact exact_functionDocument (exact.roots root isRoot)
  rw [ContractReport.document, madeElements, madeInternal]
  refine ⟨_, rfl, ?_⟩
  rw [Document.exact_fields]
  refine ⟨by simp, ?_⟩
  simp only [List.forall_mem_cons, List.not_mem_nil, false_implies,
    implies_true, and_true]
  refine ⟨exact.name, exact.path, functions, ?_, exact.layoutError,
    exactElements, Elements.exact_counts _, exactInternal,
    CallStats.exact_document _⟩
  cases found : report.layout with
  | none => rfl
  | some layout => exact (exact.layout layout found).document

theorem RunSummary.Exact.document {summary : RunSummary}
    (exact : summary.Exact) : summary.document.Exact := by
  rw [RunSummary.document, Document.exact_fields]
  refine ⟨by simp, ?_⟩
  simp only [List.forall_mem_cons, List.not_mem_nil, false_implies,
    implies_true, and_true]
  rw [Document.exact_list, List.forall_mem_map, Document.exact_list,
    List.forall_mem_map, Document.exact_list, List.forall_mem_map]
  refine ⟨exact.succeeded, exact.skipped, ?_⟩
  intro failure isFailure
  obtain ⟨name, error⟩ := exact.failed failure isFailure
  simp [name, error]

private theorem RunResult.Exact.exists_document {result : RunResult}
    (exact : result.Exact) :
    ∃ document, result.document = .ok document ∧ document.Exact := by
  obtain ⟨reports, made, exactReports⟩ := exists_documents
    fun report member => (exact.reports report member).exists_document
  rw [RunResult.document, made]
  refine ⟨_, rfl, ?_⟩
  rw [Document.exact_fields]
  refine ⟨by simp, ?_⟩
  rw [List.forall_mem_cons, List.forall_mem_singleton]
  exact ⟨exact.summary.document, exactReports⟩

/-- A result without binary numbers, whose sources can be read and whose call
trees have texts as names, has a document.  The text of the result in JSON
reads back as this document, whose maps have different texts as their keys. -/
theorem RunResult.renderAs_json_reads_back {result : RunResult}
    (exact : result.Exact) :
    ∃ document text, result.document = .ok document ∧ document.Exact ∧
      result.renderAs "json" = .ok text ∧
      Json.read? text = some document.json := by
  obtain ⟨document, made, isExact⟩ := exact.exists_document
  refine ⟨document, document.json.block, made, isExact, ?_,
    Json.read?_block (Document.isExact_json document isExact)⟩
  have format : Format.ofName "json" = .ok .json := rfl
  rw [renderAs, format]
  show result.render .json = _
  rw [render, made]
  rfl

/-- A function of a contract with a character beyond the basic plane. -/
def exportedFunction (position : Nat) : Callable :=
  { position := position
    isFunction := true
    kind := .text "function"
    contract := .text "Vault😀"
    path := .text "src/Vault.sol"
    mutability := .text "nonpayable"
    isStatic := false }

def exportedTree : CallNode :=
  .mk { declaration := some (exportedFunction 1), name := .text "pay" }
    [.mk { declaration := some (exportedFunction 2), name := .text "_pay" } []]

def exportedMember : Member :=
  .mk
    { name := .text "owner"
      type := "address"
      size := .int 20
      parent := some { type := "struct Seat", name := .text "seat" } }
    none

def exportedEvent : Element :=
  { name := .text "Paid"
    source := .ok "event Paid();"
    path := .text "src/Vault.sol" }

/-- A report with a call tree, a slot and an event, and a failure whose message
has a line break and quotes. -/
def exportedResult : RunResult :=
  { summary :=
      { succeeded := [.text "Vault😀"]
        failed := [(.text "Token", .text "no \"size\"\nfound")] }
    reports :=
      [{ name := .text "Vault😀"
         path := .text "src/Vault.sol"
         roots := [exportedTree]
         layout := some
           { slots := [{ key := Storage.slotKey 0, members := [exportedMember] }] }
         elements := { events := [exportedEvent] } }] }

private theorem exact_exportedTree :
    ∀ node ∈ exportedTree.walk, node.info.Exact := by
  simp only [exportedTree, CallNode.walk, CallNode.visit, CallNode.children,
    List.append_nil, List.forall_mem_cons, List.not_mem_nil, false_implies,
    implies_true, and_true]
  refine ⟨⟨⟨_, rfl⟩, ?_⟩, ⟨_, rfl⟩, ?_⟩
  · rintro callable ⟨⟩
    exact ⟨rfl, rfl, rfl, rfl⟩
  · rintro callable ⟨⟩
    exact ⟨rfl, rfl, rfl, rfl⟩

private theorem exact_exportedMember : exportedMember.Exact := by
  refine ⟨rfl, rfl, rfl, rfl, rfl, ?_⟩
  rintro parent ⟨⟩
  rfl

private theorem exact_exportedResult : exportedResult.Exact := by
  refine ⟨⟨?_, List.forall_mem_nil _, ?_⟩, ?_⟩
  · exact List.forall_mem_singleton.2 rfl
  · exact List.forall_mem_singleton.2 ⟨rfl, rfl⟩
  · rw [exportedResult, List.forall_mem_singleton]
    refine ⟨rfl, rfl, List.forall_mem_singleton.2 exact_exportedTree, ?_, rfl,
      ?_⟩
    · rintro layout ⟨⟩
      exact ⟨List.nodup_singleton _, List.forall_mem_singleton.2
          (List.forall_mem_singleton.2 exact_exportedMember),
        List.forall_mem_nil _⟩
    · exact ⟨List.forall_mem_singleton.2 ⟨rfl, ⟨_, rfl⟩, rfl⟩,
        List.forall_mem_nil _, List.forall_mem_nil _, List.forall_mem_nil _,
        List.forall_mem_nil _⟩

theorem RunResult.renderAs_json_exportedResult_reads_back :
    exportedResult.Exact ∧
      ∃ document text, exportedResult.document = .ok document ∧
        document.Exact ∧ exportedResult.renderAs "json" = .ok text ∧
        Json.read? text = some document.json :=
  ⟨exact_exportedResult, renderAs_json_reads_back exact_exportedResult⟩

end ContractAtlas
