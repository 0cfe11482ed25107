/-
The nodes of a document.

The objects with a node type that are reached from a document through such
objects and their lists are listed in document order.  Building a tree makes one
node for each of them; the visiting order only rearranges the nodes.
-/

import Mathlib.Data.List.Perm.Basic
import ContractAtlas.Proofs.Source.Numbering

namespace ContractAtlas

namespace Json

mutual

/-- The objects of a document that have a node type, in document order. -/
def nodeObjects : Json → List (List (String × Json))
  | obj entries =>
      match entries.lookup "nodeType" with
      | some _ => entries :: nodeObjectsOfEntries entries
      | none => []
  | _ => []

def nodeObjectsOfEntries : List (String × Json) → List (List (String × Json))
  | [] => []
  | (_, arr items) :: rest => nodeObjectsOfItems items ++ nodeObjectsOfEntries rest
  | (_, value) :: rest => nodeObjects value ++ nodeObjectsOfEntries rest

def nodeObjectsOfItems : List Json → List (List (String × Json))
  | [] => []
  | item :: rest => nodeObjects item ++ nodeObjectsOfItems rest

end

end Json

theorem nodup_visitOrder (nodeType : Json) : (visitOrder nodeType).Nodup := by
  have tableNodup : ∀ entry ∈ visitOrders, entry.2.Nodup := by decide
  cases nodeType with
  | str name =>
      rw [visitOrder]
      cases found : visitOrders.lookup name with
      | none => exact List.nodup_nil
      | some order =>
          obtain ⟨before, after, same, -⟩ := List.lookup_eq_some_iff.1 found
          apply tableNodup (name, order)
          rw [same]
          exact List.mem_append_right before List.mem_cons_self
  | null | bool | int | real | arr | obj => exact List.nodup_nil

namespace Node

private theorem flatMap_fields_perm {order : List String}
    (distinct : order.Nodup)
    (children : List Node) :
    (order.flatMap fun key =>
        children.filter fun child => child.info.field == key).Perm
      (children.filter fun child => order.contains child.info.field) := by
  induction order with
  | nil => simp
  | cons key rest inductionHypothesis =>
      obtain ⟨fresh, restDistinct⟩ := List.nodup_cons.1 distinct
      have split := List.filter_append_perm
        (fun child : Node => child.info.field == key)
        (children.filter fun child => (key :: rest).contains child.info.field)
      simp only [List.filter_filter] at split
      have first : (fun child : Node =>
          child.info.field == key && (key :: rest).contains child.info.field) =
            fun child => child.info.field == key := by
        funext child
        by_cases same : child.info.field = key <;> simp [same]
      have others : (fun child : Node =>
          !(child.info.field == key) &&
            (key :: rest).contains child.info.field) =
            fun child => rest.contains child.info.field := by
        funext child
        by_cases same : child.info.field = key <;> simp [same, fresh]
      rw [first, others] at split
      rw [List.flatMap_cons]
      exact ((inductionHypothesis restDistinct).append_left _).trans split

/-- Bringing children into visiting order keeps each of them once. -/
theorem arrange_perm {order : List String} (distinct : order.Nodup)
    (children : List Node) : (arrange order children).Perm children :=
  ((flatMap_fields_perm distinct children).append_right _).trans
    (List.filter_append_perm
      (fun child : Node => order.contains child.info.field) children)

/-- What a node was made from, and the reference stored in it. -/
def origin (node : Node) : List (String × Json) × Option Nat :=
  (node.info.attributes, node.info.target)

theorem preorderOfAll_perm {left right : List Node} (same : left.Perm right) :
    (preorderOfAll left).Perm (preorderOfAll right) := by
  rw [preorderOfAll_eq_flatMap, preorderOfAll_eq_flatMap]
  exact same.flatMap_right preorder

mutual

/-- A built tree has a node for each object, and no node refers to another. -/
theorem origins_ofValue? (field : String) (listed : Bool) : (value : Json) →
    ((preorderOfAll (ofValue? field listed value).toList).map origin).Perm
      (value.nodeObjects.map fun object => (object, none))
  | .obj entries => by
      rw [ofValue?, Json.nodeObjects]
      cases entries.lookup "nodeType" with
      | none => simp only [Option.toList, preorderOfAll, List.map_nil]; exact .nil
      | some nodeType =>
          have arranged := preorderOfAll_perm
            (arrange_perm (nodup_visitOrder nodeType) (ofEntries entries))
          have below := (arranged.map origin).trans (origins_ofEntries entries)
          simp only [Option.toList, preorderOfAll, preorder, List.append_nil,
            List.map_cons]
          exact below.cons _
  | .null | .bool _ | .int _ | .real _ | .str _ | .arr _ => by
      simp only [ofValue?, Json.nodeObjects, Option.toList, preorderOfAll,
        List.map_nil]
      exact .nil

private theorem origins_ofEntries : (entries : List (String × Json)) →
    ((preorderOfAll (ofEntries entries)).map origin).Perm
      ((Json.nodeObjectsOfEntries entries).map fun object => (object, none))
  | [] => by
      simp only [ofEntries, Json.nodeObjectsOfEntries, preorderOfAll,
        List.map_nil]
      exact .nil
  | (key, .arr items) :: rest => by
      rw [ofEntries, Json.nodeObjectsOfEntries, preorderOfAll_append,
        List.map_append, List.map_append]
      exact (origins_ofItems key items).append (origins_ofEntries rest)
  | (key, .obj entries) :: rest => by
      rw [ofEntries, Json.nodeObjectsOfEntries, preorderOfAll_append,
        List.map_append, List.map_append]
      · exact (origins_ofValue? key false (.obj entries)).append
          (origins_ofEntries rest)
      · intro items same
        cases same
      · intro items same
        cases same
  | (key, .null) :: rest | (key, .bool _) :: rest | (key, .int _) :: rest
  | (key, .real _) :: rest | (key, .str _) :: rest => by
      simpa only [ofEntries, Json.nodeObjectsOfEntries, ofValue?,
        Json.nodeObjects, Option.toList, List.nil_append] using
        origins_ofEntries rest

private theorem origins_ofItems (key : String) : (items : List Json) →
    ((preorderOfAll (ofItems key items)).map origin).Perm
      ((Json.nodeObjectsOfItems items).map fun object => (object, none))
  | [] => by
      simp only [ofItems, Json.nodeObjectsOfItems, preorderOfAll, List.map_nil]
      exact .nil
  | item :: rest => by
      rw [ofItems, Json.nodeObjectsOfItems, preorderOfAll_append,
        List.map_append, List.map_append]
      exact (origins_ofValue? key true item).append (origins_ofItems key rest)

end

end Node

end ContractAtlas
