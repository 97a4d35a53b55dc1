import EmbedQuery.Proofs.Embedding.Composer
import EmbedQuery.Proofs.Embedding.Consistency
import EmbedQuery.Proofs.Forest

/-!
# Numbered trees are forests in post-order

What the composer has pushed is a forest (`Resolver.resolve_forest`): each part stands in one list
of children, what is below a part has the numbers right before its own, and the walk from the root
that visits a part behind everything in it visits them all, one after the other. The same walk meets
the errors in the order of the list of parts, so looking for errors from the root and looking for
failed parts in the list agree.
-/

namespace EmbedQuery

namespace EmbeddingArena

/-- The numbers of the children of a part. -/
def Node.children : Node → List Nat
  | resolved _ children => children
  | failed .. => []

def Node.error? : Node → Option EmbedError
  | resolved .. => none
  | failed _ error => some error

/-- The numbers of the children of the part with a number. -/
abbrev childrenOf (a : EmbeddingArena) : Nat → List Nat := childrenIn Node.children a.nodes

/-- The parts are a forest, and their numbers are its post-order. -/
structure IsForest (a : EmbeddingArena) : Prop where
  /-- Each number stands in exactly one list of children. -/
  once : (a.children ++ a.nodes.flatMap Node.children).Perm (List.range a.nodes.length)
  /-- What is below a part are the parts right before it, from some number on. -/
  contiguous : ∀ id < a.nodes.length,
    ∃ first ≤ id, ∀ d, Below a.childrenOf d id ↔ first ≤ d ∧ d < id
  /-- There is nothing below what failed. -/
  leaf : ∀ id key error, a.nodes[id]? = some (.failed key error) → ∀ d, ¬ Below a.childrenOf d id
  /-- From the root all parts are reached, each behind what is below it. -/
  postOrder : PostOrder a.childrenOf a.children (List.range a.nodes.length)

/-- A walk from some parts down, which gathers the errors on its way. -/
inductive Collects (nodes : List Node) : List Nat → List EmbedError → Prop
  | nil : Collects nodes [] []
  | failed {id : Nat} {key : Option String} {error : EmbedError} {ids : List Nat}
      {errors : List EmbedError} (hnode : nodes[id]? = some (.failed key error))
      (hmore : Collects nodes ids errors) : Collects nodes (id :: ids) (error :: errors)
  | resolved {id : Nat} {e : Embedding} {children ids : List Nat} {inner more : List EmbedError}
      (hnode : nodes[id]? = some (.resolved e children)) (hinner : Collects nodes children inner)
      (hmore : Collects nodes ids more) : Collects nodes (id :: ids) (inner ++ more)

variable {nodes : List Node} {ids visited : List Nat} {errors : List EmbedError}

/-- A walk gathers one list of errors only. -/
theorem Collects.unique (h : Collects nodes ids errors) {errors' : List EmbedError}
    (h' : Collects nodes ids errors') : errors' = errors := by
  induction h generalizing errors' with
  | nil =>
    cases h'
    rfl
  | failed hnode _ ih =>
    cases h' with
    | failed hnode' hmore =>
      cases hnode.symm.trans hnode'
      rw [ih hmore]
    | resolved hnode' => cases hnode.symm.trans hnode'
  | resolved hnode _ _ ihinner ihmore =>
    cases h' with
    | failed hnode' => cases hnode.symm.trans hnode'
    | resolved hnode' hinner hmore =>
      cases hnode.symm.trans hnode'
      rw [ihinner hinner, ihmore hmore]

/-- A walk gathers the errors of the parts that it visits. -/
theorem Collects.of_postOrder (h : PostOrder (childrenIn Node.children nodes) ids visited)
    (hvisited : ∀ id ∈ visited, id < nodes.length) :
    Collects nodes ids (visited.filterMap fun id => nodes[id]?.bind Node.error?) := by
  induction h with
  | nil => exact .nil
  | @cons id ids inner more hinner _ ihinner ihmore =>
    have hmore := ihmore fun d hd => hvisited d (by simp [hd])
    have hid : id < nodes.length := hvisited id (by simp)
    have hnode : nodes[id]? = some nodes[id] := List.getElem?_eq_getElem hid
    rw [List.filterMap_append, List.filterMap_cons]
    cases hpart : nodes[id] with
    | resolved e children =>
      have hinner := ihinner fun d hd => hvisited d (by simp [hd])
      rw [hpart] at hnode
      simp only [childrenIn, hnode] at hinner ⊢
      exact .resolved hnode hinner hmore
    | failed key error =>
      rw [hpart] at hnode
      simp only [childrenIn, hnode] at hinner ⊢
      cases hinner
      exact .failed hnode hmore

theorem filterMap_range_error? (nodes : List Node) :
    ((List.range nodes.length).filterMap fun id => nodes[id]?.bind Node.error?) =
      nodes.filterMap Node.error? := by
  have hmap : (List.range nodes.length).map (nodes[·]?) = nodes.map some := by
    refine List.ext_getElem (by simp) fun i hi hi' => ?_
    rw [List.length_map, List.length_range] at hi
    simp [hi]
  calc (List.range nodes.length).filterMap (fun id => nodes[id]?.bind Node.error?)
    _ = ((List.range nodes.length).map (nodes[·]?)).filterMap (·.bind Node.error?) := by
      rw [List.filterMap_map]
      rfl
    _ = nodes.filterMap Node.error? := by
      rw [hmap, List.filterMap_map]
      rfl

/-- Parts that are visited one after the other from the root are a forest. -/
theorem IsForest.of_postOrder {a : EmbeddingArena}
    (h : PostOrder a.childrenOf a.children (List.range a.nodes.length)) : a.IsForest where
  once := h.perm_range
  contiguous id hid := by
    rw [List.range_eq_range'] at h
    exact h.exists_first id (Nat.zero_le id) (by omega)
  leaf id key error hnode d hbelow := by
    obtain ⟨child, hchild, -⟩ := below_iff.1 hbelow
    simp [childrenIn, hnode, Node.children] at hchild
  postOrder := h

theorem IsForest.collects_iff {a : EmbeddingArena} (h : a.IsForest) :
    Collects a.nodes a.children errors ↔ errors = a.nodes.filterMap Node.error? := by
  have hwalk := Collects.of_postOrder h.postOrder fun id hid => List.mem_range.1 hid
  rw [filterMap_range_error?] at hwalk
  exact ⟨hwalk.unique, fun heq => heq ▸ hwalk⟩

theorem isSome_error? (node : Node) : node.error?.isSome = node.isFailed := by
  cases node <;> rfl

theorem length_filterMap_error? (nodes : List Node) :
    (nodes.filterMap Node.error?).length = nodes.countP Node.isFailed := by
  rw [List.length_filterMap_eq_countP]
  simp only [isSome_error?]

end EmbeddingArena

open EmbeddingArena

/-! ### Parts that are pushed -/

mutual

theorem EmbeddingNode.filterMap_flatten : ∀ (next : Nat) (node : EmbeddingNode),
    (node.flatten next).filterMap Node.error? = node.errors
  | next, .resolved embedding children => by
    have hchildren := filterMap_flattenNodes next children
    rw [EmbeddingNode.flatten_resolved, List.filterMap_append, hchildren]
    exact List.append_nil _
  | _, .failed _ _ => rfl

/-- The failed parts hold the errors in query order. -/
theorem filterMap_flattenNodes : ∀ (next : Nat) (nodes : List EmbeddingNode),
    (flattenNodes next nodes).2.filterMap Node.error? = nodeErrors nodes
  | _, [] => rfl
  | next, node :: nodes => by
    have hnode := node.filterMap_flatten next
    have hnodes := filterMap_flattenNodes (next + node.size) nodes
    rw [flattenNodes_cons, List.filterMap_append, hnode, hnodes]
    rfl

end

mutual

theorem EmbeddingNode.postOrder_flatten : ∀ (front back : List Node) (node : EmbeddingNode),
    PostOrder (childrenIn Node.children (front ++ node.flatten front.length ++ back))
      [front.length + node.size - 1] (List.range' front.length node.size)
  | front, back, .resolved embedding children => by
    have hchildren := postOrder_flattenNodes front
      (.resolved embedding (flattenNodes front.length children).1 :: back) children
    have hlength : (front ++ (flattenNodes front.length children).2).length =
        front.length + nodesSize children := by
      rw [List.length_append, length_flattenNodes]
    have hown := childrenIn_append_cons Node.children
      (front ++ (flattenNodes front.length children).2)
      (.resolved embedding (flattenNodes front.length children).1) back
    rw [hlength] at hown
    rw [EmbeddingNode.flatten_resolved, EmbeddingNode.size, List.range'_1_concat]
    simp only [List.append_assoc, List.cons_append, List.nil_append] at hchildren hown ⊢
    refine .cons ?_ .nil
    rw [← Nat.add_assoc, Nat.add_sub_cancel, hown]
    exact hchildren
  | front, back, .failed key error => by
    have hown := childrenIn_append_cons Node.children front (.failed key error) back
    show PostOrder (childrenIn _ (front ++ [.failed key error] ++ back)) [front.length]
      ([] ++ front.length :: [])
    rw [List.append_assoc]
    refine .cons ?_ .nil
    rw [List.cons_append, List.nil_append, hown]
    exact .nil

/-- The walk from some parts, whose parts stand in a row, visits the row. -/
theorem postOrder_flattenNodes : ∀ (front back : List Node) (nodes : List EmbeddingNode),
    PostOrder (childrenIn Node.children (front ++ (flattenNodes front.length nodes).2 ++ back))
      (flattenNodes front.length nodes).1 (List.range' front.length (nodesSize nodes))
  | _, _, [] => .nil
  | front, back, node :: nodes => by
    have hnode := node.postOrder_flatten front
      ((flattenNodes (front.length + node.size) nodes).2 ++ back)
    have hnodes := postOrder_flattenNodes (front ++ node.flatten front.length) back nodes
    rw [List.length_append, node.length_flatten] at hnodes
    rw [flattenNodes_cons, nodesSize, ← List.range'_append_1]
    simp only [List.append_assoc] at hnode hnodes ⊢
    exact hnode.append hnodes

end

theorem EmbeddingTree.isForest_arena (t : EmbeddingTree) : t.arena.IsForest := by
  refine .of_postOrder ?_
  have hwalk := postOrder_flattenNodes [] [] t.children
  rw [List.append_nil, List.nil_append, List.length_nil, ← length_flattenNodes 0,
    ← List.range_eq_range'] at hwalk
  exact hwalk

namespace Resolver

/-- The tree of a query is what the composer pushes, a forest in post-order. The walk from the root
gathers the errors of the tree, those of the failed parts in the order of their numbers. -/
theorem resolve_forest (r : Resolver) {root : String} {query : QueryTree} {t : EmbeddingTree}
    (h : r.resolve root query = .ok t) :
    r.compose root query = .ok t.arena ∧ t.arena.IsForest ∧
      (∀ errors, Collects t.arena.nodes t.arena.children errors ↔ errors = t.errors) ∧
      t.errors = t.arena.nodes.filterMap Node.error? ∧
      t.errors.length = t.arena.nodes.countP Node.isFailed ∧
      (t.arena.hasErrors = true ↔ t.errors ≠ []) := by
  have hcompose : r.compose root query = .ok t.arena := by rw [compose_eq, h]; rfl
  have herrors : t.errors = t.arena.nodes.filterMap Node.error? :=
    (filterMap_flattenNodes 0 t.children).symm
  have hlength : t.errors.length = t.arena.nodes.countP Node.isFailed := by
    rw [herrors, length_filterMap_error?]
  refine ⟨hcompose, t.isForest_arena, fun errors => ?_, herrors, hlength, ?_⟩
  · rw [t.isForest_arena.collects_iff, herrors]
  · rw [hasErrors, List.any_eq_true, ← List.length_pos_iff, hlength, List.countP_pos_iff]

end Resolver

/-- A table in itself both ways, a table two deep, names that mean nothing at two depths and a list
that is not closed. -/
theorem Resolver.resolve_forest_staff :
    ∃ t, Resolver.resolve { catalog := .staff } "employees" (QueryTree.parse
        "employees!manager(rooms, departments(heads)), employees!id(*), count(") = .ok t ∧
      Resolver.compose { catalog := .staff } "employees" (QueryTree.parse
        "employees!manager(rooms, departments(heads)), employees!id(*), count(") = .ok t.arena ∧
      t.arena.IsForest ∧
      (∀ errors, Collects t.arena.nodes t.arena.children errors ↔ errors = t.errors) ∧
      t.errors = t.arena.nodes.filterMap Node.error? ∧
      t.errors.length = t.arena.nodes.countP Node.isFailed ∧
      (t.arena.hasErrors = true ↔ t.errors ≠ []) := by
  have htable : (Catalog.table? .staff "employees").isSome := rfl
  obtain ⟨table, htable⟩ := Option.isSome_iff_exists.1 htable
  obtain ⟨t, ht, -⟩ := Resolver.resolve_of_table (r := { catalog := .staff }) htable
    (QueryTree.parse "employees!manager(rooms, departments(heads)), employees!id(*), count(")
  exact ⟨t, ht, Resolver.resolve_forest _ ht⟩

end EmbedQuery
