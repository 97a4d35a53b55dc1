import EmbedQuery.Proofs.Embedding.Composition
import EmbedQuery.Proofs.Query.Gap

/-!
# Resolving around a gap

What a list means is known up to its gap before anything is put in: either the gap is never
reached, since the resource of a block around it means nothing or it was discarded, or the list
means a selection that has a gap itself, and what is put in the list is put there as what it means
on the table of the gap (`Resolver.selectList_fill`, by induction on the gap).

If this is a single part, the numbers of all other parts are known too, up to its size
(`SelectionGap.flattenNodes_fill`).
-/

namespace EmbedQuery

/-- The numbers around one of several parts depend on nothing of it but its size. -/
theorem flattenNodes_around (size next : Nat) (nodes more : List EmbeddingNode) :
    ∃ ids front back, front.length = nodesSize nodes ∧
      ∀ node : EmbeddingNode, node.size = size →
        flattenNodes next (nodes ++ node :: more) =
          (ids, front ++ node.flatten (next + front.length) ++ back) := by
  let number := next + nodesSize nodes + size
  refine ⟨(flattenNodes next nodes).1 ++ (number - 1) :: (flattenNodes number more).1,
    (flattenNodes next nodes).2, (flattenNodes number more).2, length_flattenNodes next nodes,
    fun node hnode => ?_⟩
  rw [flattenNodes_append, flattenNodes_cons, length_flattenNodes, hnode, List.append_assoc]

/-- A selection with a gap in it. A table around the gap is known up to its fields, since a field
may be put in the gap. -/
inductive SelectionGap
  /-- Behind what comes first and before what comes last. -/
  | among (front back : Selection)
  /-- In a table. -/
  | inside (front : Selection) (embedding : List Field → Embedding) (gap : SelectionGap)
      (back : Selection)

namespace SelectionGap

/-- The selection with another one in the gap. -/
def fill (s : Selection) : SelectionGap → Selection
  | among front back => front ++ (s ++ back)
  | inside front embedding gap back =>
    front ++
      (.ofNode (.resolved (embedding (gap.fill s).fields) (gap.fill s).children) ++ back)

/-- A part in the gap adds no field. -/
theorem fields_fill_ofNode (node : EmbeddingNode) (gap : SelectionGap) :
    (gap.fill (.ofNode node)).fields = (gap.fill {}).fields := by
  cases gap <;> rfl

/-- The numbers around a part in a gap depend on nothing of it but its size. -/
theorem flattenNodes_fill (size : Nat) (gap : SelectionGap) (next : Nat) :
    ∃ ids front back, ∀ node : EmbeddingNode, node.size = size →
      flattenNodes next (gap.fill (.ofNode node)).children =
        (ids, front ++ node.flatten (next + front.length) ++ back) := by
  induction gap generalizing next with
  | among front back =>
    obtain ⟨ids, before, behind, -, haround⟩ :=
      flattenNodes_around size next front.children back.children
    exact ⟨ids, before, behind, haround⟩
  | inside front embedding gap back ih =>
    obtain ⟨inside, inner, rest, hfill⟩ := ih (next + nodesSize front.children)
    let table := embedding (gap.fill {}).fields
    have hsize (node : EmbeddingNode) (hnode : node.size = size) :
        (EmbeddingNode.resolved table (gap.fill (.ofNode node)).children).size =
          inner.length + size + rest.length + 1 := by
      have hlength := length_flattenNodes (next + nodesSize front.children)
        (gap.fill (.ofNode node)).children
      rw [hfill node hnode, List.length_append, List.length_append, node.length_flatten,
        hnode] at hlength
      rw [EmbeddingNode.size, ← hlength]
    obtain ⟨ids, before, behind, hbefore, haround⟩ := flattenNodes_around
      (inner.length + size + rest.length + 1) next front.children back.children
    refine ⟨ids, before ++ inner, rest ++ .resolved table inside :: behind, fun node hnode => ?_⟩
    show flattenNodes next (front.children ++ .resolved _ _ :: back.children) = _
    rw [fields_fill_ofNode, haround _ (hsize node hnode), EmbeddingNode.flatten_resolved, hbefore,
      hfill node hnode, List.length_append, hbefore]
    simp only [List.append_assoc, List.cons_append, List.nil_append, Nat.add_assoc, table]

end SelectionGap

namespace Resolver

variable {r : Resolver} {table : Table} {root : String}

/-- Whatever is put in the gap of a list, either the list means the same, or it means the same up to
what this means on the table of the gap. -/
theorem selectList_fill (gap : Gap) (htable : r.catalog.table? root = some table) :
    (∀ items more, r.selectList table (gap.fill items) = r.selectList table (gap.fill more)) ∨
      ∃ inner selection, r.catalog.table? (gap.tableName root) = some inner ∧
        ∀ items, r.selectList table (gap.fill items) =
          SelectionGap.fill (r.selectList inner items) selection := by
  induction gap generalizing root table with
  | among front back =>
    refine .inr ⟨table, .among (r.selectList table front) (r.selectList table back), htable, ?_⟩
    intro items
    rw [Gap.fill, selectList_append, selectList_append]
    rfl
  | inside front resource gap back ih =>
    rcases r.embed_cases table resource with
      ⟨error, -, hembed⟩ | ⟨found, target, -, htarget, hembed⟩
    · left
      intro items more
      simp only [Gap.fill, selectList_append, selectList, selectItem, hembed]
    · rcases ih htarget with hsame | ⟨inner, selection, hinner, hfill⟩
      · left
        intro items more
        simp only [Gap.fill, selectList_append, selectList, selectItem, hembed, hsame items more]
      · refine .inr ⟨inner, .inside (r.selectList table front) (r.embedding resource found target)
          selection (r.selectList table back), hinner, ?_⟩
        intro items
        rw [Gap.fill, selectList_append, selectList, selectItem, hembed, hfill]
        rfl
  | discarded front error gap back ih =>
    left
    intro items more
    simp only [Gap.fill, selectList_append, selectList, selectItem]

/-- What stands in a gap counts for what it means on the table of the gap. -/
theorem selectList_fill_congr {items more : List SelectItem} (gap : Gap)
    (htable : r.catalog.table? root = some table)
    (h : ∀ t, r.catalog.table? (gap.tableName root) = some t →
      r.selectList t items = r.selectList t more) :
    r.selectList table (gap.fill items) = r.selectList table (gap.fill more) := by
  rcases selectList_fill gap htable with hsame | ⟨inner, selection, hinner, hfill⟩
  · exact hsame items more
  · rw [hfill, hfill, h inner hinner]

end Resolver

end EmbedQuery
