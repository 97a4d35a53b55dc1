import EmbedQuery.Proofs.Embedding.Consistency
import EmbedQuery.Proofs.Embedding.Numbering
import EmbedQuery.Proofs.Relationship.Rearrangement

/-!
# Resolving in another order

A catalog in another order gives the same trees, number by number, except that foreign keys are at
other places and that an error may name the ways that are left in another order:
`Resolver.resolve_alike` for catalogs and `Catalog.ofDocument_perm` for the documents they
come from.

The relation is `Alike`, on parts of trees and on lists of them. Every item keeps it, by induction
on the item, since what resolving asks of a catalog is answered alike in every order.
-/

namespace EmbedQuery

/-! ### Trees that are alike -/

/-- The same error, up to the order in which the ways that are left are named. -/
inductive EmbedError.Alike : EmbedError → EmbedError → Prop
  | same (e : EmbedError) : Alike e e
  | relationship {e e' : RelationshipError} (h : e.Alike e') :
      Alike (.relationship e) (.relationship e')

/-- Errors that are alike are of one kind and have one text. -/
theorem EmbedError.Alike.kind_message {e e' : EmbedError} (h : e.Alike e') :
    e.kind = e'.kind ∧ e.message = e'.message := by
  cases h with
  | same => exact ⟨rfl, rfl⟩
  | relationship h => cases h <;> exact ⟨rfl, rfl⟩

/-- The embedding with the place of its foreign key in another order. -/
def Embedding.renumber (σ : Equiv.Perm ℕ) (e : Embedding) : Embedding :=
  { e with relationship := e.relationship.map (Relationship.renumber σ) }

mutual

/-- The same part of a tree, up to places of foreign keys and the order of names in errors. -/
inductive EmbeddingNode.Alike (σ : Equiv.Perm ℕ) : EmbeddingNode → EmbeddingNode → Prop
  | resolved (e : Embedding) {children children' : List EmbeddingNode}
      (h : NodesAlike σ children children') :
      EmbeddingNode.Alike σ (.resolved e children) (.resolved (e.renumber σ) children')
  | failed (key : Option String) {error error' : EmbedError} (h : error.Alike error') :
      EmbeddingNode.Alike σ (.failed key error) (.failed key error')

/-- Parts that are alike one by one. -/
inductive NodesAlike (σ : Equiv.Perm ℕ) : List EmbeddingNode → List EmbeddingNode → Prop
  | nil : NodesAlike σ [] []
  | cons {node node' : EmbeddingNode} {nodes nodes' : List EmbeddingNode}
      (h : EmbeddingNode.Alike σ node node') (hs : NodesAlike σ nodes nodes') :
      NodesAlike σ (node :: nodes) (node' :: nodes')

end

namespace EmbeddingArena

/-- The same numbered part, up to the place of its foreign key and the order of names in errors. -/
inductive Node.Alike (σ : Equiv.Perm ℕ) : Node → Node → Prop
  | resolved (e : Embedding) (children : List Nat) :
      Alike σ (.resolved e children) (.resolved (e.renumber σ) children)
  | failed (key : Option String) {error error' : EmbedError} (h : error.Alike error') :
      Alike σ (.failed key error) (.failed key error')

/-- Numbered trees that are the same number by number, up to places of foreign keys and the order of
names in errors. -/
structure Alike (σ : Equiv.Perm ℕ) (a a' : EmbeddingArena) : Prop where
  root : a'.root = a.root
  children : a'.children = a.children
  nodes : List.Forall₂ (Node.Alike σ) a.nodes a'.nodes

end EmbeddingArena

open EmbeddingArena

variable {σ : Equiv.Perm ℕ}

mutual

theorem EmbeddingNode.Alike.flatten {node node' : EmbeddingNode} :
    node.Alike σ node' → ∀ next,
      List.Forall₂ (Node.Alike σ) (node.flatten next) (node'.flatten next)
  | .resolved e h, next => by
    obtain ⟨hids, hnodes⟩ := NodesAlike.flattenNodes h next
    rw [EmbeddingNode.flatten_resolved, EmbeddingNode.flatten_resolved, hids]
    exact List.rel_append hnodes (.cons (.resolved e _) .nil)
  | .failed key h, _ => .cons (.failed key h) .nil

/-- Parts that are alike have the same numbers. -/
theorem NodesAlike.flattenNodes {nodes nodes' : List EmbeddingNode} :
    NodesAlike σ nodes nodes' → ∀ next,
      (flattenNodes next nodes').1 = (flattenNodes next nodes).1 ∧
        List.Forall₂ (Node.Alike σ) (flattenNodes next nodes).2 (flattenNodes next nodes').2
  | .nil, _ => ⟨rfl, .nil⟩
  | .cons h hs, next => by
    have hnode := EmbeddingNode.Alike.flatten h next
    have hsize := hnode.length_eq
    rw [EmbeddingNode.length_flatten, EmbeddingNode.length_flatten] at hsize
    rw [flattenNodes_cons, flattenNodes_cons, hsize]
    obtain ⟨hids, hnodes⟩ := NodesAlike.flattenNodes hs _
    exact ⟨congrArg (_ :: ·) hids, List.rel_append hnode hnodes⟩

end

/-- What a list means is alike: the fields are the same, and what is embedded is alike. -/
structure Selection.Alike (σ : Equiv.Perm ℕ) (s s' : Selection) : Prop where
  fields : s'.fields = s.fields
  children : NodesAlike σ s.children s'.children

theorem NodesAlike.append {nodes nodes' more more' : List EmbeddingNode}
    (h : NodesAlike σ nodes nodes') (hmore : NodesAlike σ more more') :
    NodesAlike σ (nodes ++ more) (nodes' ++ more') := by
  induction nodes generalizing nodes' with
  | nil =>
    cases h
    exact hmore
  | cons node nodes ih =>
    cases h with
    | cons hnode hnodes => exact .cons hnode (ih hnodes)

namespace Selection.Alike

variable {s s' t t' : Selection}

theorem fieldsOnly (fields : List Field) : Selection.Alike σ ⟨fields, []⟩ ⟨fields, []⟩ :=
  ⟨rfl, .nil⟩

theorem ofNode {node node' : EmbeddingNode} (h : node.Alike σ node') :
    (Selection.ofNode node).Alike σ (.ofNode node') :=
  ⟨rfl, .cons h .nil⟩

theorem append (h : s.Alike σ s') (ht : t.Alike σ t') : (s ++ t).Alike σ (s' ++ t') where
  fields := congrArg₂ _ h.fields ht.fields
  children := h.children.append ht.children

end Selection.Alike

/-! ### Resolving in another order -/

namespace Resolver

variable {r r' : Resolver}

theorem isRelated_rearranged (h : Catalog.Rearranges σ r.catalog r'.catalog) (table : Table)
    (name : String) : r'.isRelated table name = r.isRelated table name := by
  rw [Bool.eq_iff_iff, isRelated_iff, isRelated_iff, ← List.length_pos_iff, ← List.length_pos_iff,
    h.length_ways]

theorem mayBeMissing_renumber (h : Catalog.Rearranges σ r.catalog r'.catalog)
    (found : Relationship) (join : JoinModifier) :
    r'.mayBeMissing (found.renumber σ) join = r.mayBeMissing found join := by
  have hsource : r'.hasNullableSource (found.renumber σ) = r.hasNullableSource found := by
    unfold hasNullableSource
    simp only [h.table?_eq]
    exact congrArg (Option.any _) (h.foreignKeys found.position)
  unfold mayBeMissing
  rw [hsource]
  rfl

theorem embed_alike (h : Catalog.Rearranges σ r.catalog r'.catalog) (parent : Table)
    (resource : Resource) {select select' : Table → Selection}
    (hselect : ∀ target, (select target).Alike σ (select' target)) :
    (r.embed parent resource select).Alike σ (r'.embed parent resource select') := by
  unfold embed
  rw [h.table?_eq]
  rcases relationship_alike h parent.name resource.name resource.hint with
    ⟨found, hfound, hfound'⟩ | ⟨error, error', herror, herror', halike⟩
  · rw [hfound, hfound']
    cases r.catalog.table? resource.name with
    | none => exact .failed _ (.same _)
    | some target =>
      obtain ⟨hfields, hchildren⟩ := hselect target
      simp only [mayBeMissing_renumber h, hfields]
      exact .resolved _ hchildren
  · rw [herror, herror']
    exact .failed _ (.relationship halike)

theorem selectColumn_alike (h : Catalog.Rearranges σ r.catalog r'.catalog) (table : Table)
    (column : ColumnRef) :
    (r.selectColumn table column).Alike σ (r'.selectColumn table column) := by
  unfold selectColumn
  rw [isRelated_rearranged h]
  split
  · exact .ofNode (embed_alike h table _ fun _ => .fieldsOnly _)
  · split
    · exact .ofNode (.failed _ (.same _))
    · exact .fieldsOnly _

mutual

theorem selectItem_alike {r r' : Resolver} (h : Catalog.Rearranges σ r.catalog r'.catalog) :
    ∀ (item : SelectItem) (table : Table),
      (r.selectItem table item).Alike σ (r'.selectItem table item)
  | .wildcard _, _ | .count .., _ => .fieldsOnly _
  | .column column, table => selectColumn_alike h table column
  | .bare resource, table => .ofNode (embed_alike h table resource fun _ => .fieldsOnly _)
  | .block resource items, table =>
    .ofNode (embed_alike h table resource fun target => selectList_alike h items target)
  | .invalid _ _, _ => .ofNode (.failed none (.same _))

/-- What a list means on a table is alike in every order of the catalog. -/
theorem selectList_alike {r r' : Resolver} (h : Catalog.Rearranges σ r.catalog r'.catalog) :
    ∀ (items : List SelectItem) (table : Table),
      (r.selectList table items).Alike σ (r'.selectList table items)
  | [], _ => .fieldsOnly _
  | item :: items, table =>
    (selectItem_alike h item table).append (selectList_alike h items table)

end

theorem selectQuery_alike (h : Catalog.Rearranges σ r.catalog r'.catalog) (table : Table)
    (query : QueryTree) : (r.selectQuery table query).Alike σ (r'.selectQuery table query) := by
  unfold selectQuery
  split
  · exact .fieldsOnly _
  · exact selectList_alike h _ table

/-- In another order of the catalog, a query fails on a root that is no table, and otherwise has the
same tree, number by number. -/
theorem resolve_alike (h : Catalog.Rearranges σ r.catalog r'.catalog) (root : String)
    (query : QueryTree) :
    (∀ error, r.resolve root query = .error error → r'.resolve root query = .error error) ∧
      ∀ t, r.resolve root query = .ok t →
        ∃ t', r'.resolve root query = .ok t' ∧ t.arena.Alike σ t'.arena := by
  unfold resolve
  rw [h.table?_eq]
  cases r.catalog.table? root with
  | none =>
    refine ⟨fun _ herror => herror, ?_⟩
    rintro t ⟨⟩
  | some table =>
    obtain ⟨hfields, hchildren⟩ := selectQuery_alike h table query
    obtain ⟨hids, hnodes⟩ := hchildren.flattenNodes 0
    constructor
    · rintro error ⟨⟩
    · rintro t ⟨⟩
      refine ⟨_, rfl, ?_, hids, hnodes⟩
      simp only [EmbeddingTree.arena, hfields]

end Resolver

/-- Of two documents with the same tables and foreign keys in different orders, both give catalogs
or none does. On the catalogs every query has the same outcome, up to the permutation of places that
takes each foreign key to itself and to the order of names in errors. -/
theorem Catalog.ofDocument_perm {d d' : Document} (htables : d.tables.Perm d'.tables)
    (hkeys : d.foreignKeys.Perm d'.foreignKeys) :
    ((∃ c, ofDocument d = .ok c) ↔ ∃ c, ofDocument d' = .ok c) ∧
      ∀ r r' : Resolver, ofDocument d = .ok r.catalog → ofDocument d' = .ok r'.catalog →
        ∃ σ : Equiv.Perm ℕ,
          (∀ i, r'.catalog.foreignKeys[σ i]? = r.catalog.foreignKeys[i]?) ∧
            ∀ root query : String,
              (∀ error, r.resolveText root query = .error error →
                r'.resolveText root query = .error error) ∧
              ∀ t, r.resolveText root query = .ok t →
                ∃ t', r'.resolveText root query = .ok t' ∧ t.arena.Alike σ t'.arena := by
  refine ⟨exists_ofDocument_iff_of_perm htables hkeys, ?_⟩
  intro r r' hc hc'
  obtain ⟨σ, hσ⟩ := exists_rearranges htables hkeys hc hc'
  exact ⟨σ, hσ.foreignKeys, fun root query => Resolver.resolve_alike hσ root _⟩

/-- A table, a table under a hint, and two ways that are left, in the reverse order. -/
theorem Catalog.ofDocument_perm_staff :
    ∃ (r r' : Resolver) (σ : Equiv.Perm ℕ) (t t' : EmbeddingTree),
      ofDocument staff.toDocument = .ok r.catalog ∧
      ofDocument ⟨staff.tables.reverse, staff.foreignKeys.reverse⟩ = .ok r'.catalog ∧
      (∀ i, r'.catalog.foreignKeys[σ i]? = r.catalog.foreignKeys[i]?) ∧
      r.resolveText "employees" "departments, boss:employees!manager(id), employees(*)" = .ok t ∧
      r'.resolveText "employees" "departments, boss:employees!manager(id), employees(*)" = .ok t' ∧
      t.arena.Alike σ t'.arena := by
  obtain ⟨c, hc⟩ : ∃ c, ofDocument ⟨staff.tables.reverse, staff.foreignKeys.reverse⟩ = .ok c :=
    exists_ofDocument_iff.2 (by decide)
  have hstaff : ofDocument staff.toDocument = .ok staff := rfl
  obtain ⟨-, halike⟩ := @ofDocument_perm staff.toDocument
    ⟨staff.tables.reverse, staff.foreignKeys.reverse⟩ (List.reverse_perm _).symm
    (List.reverse_perm _).symm
  obtain ⟨σ, hσ, hresolve⟩ := halike { catalog := staff } { catalog := c } hstaff hc
  obtain ⟨-, htree⟩ :=
    hresolve "employees" "departments, boss:employees!manager(id), employees(*)"
  obtain ⟨t, ht⟩ : ∃ t, Resolver.resolveText { catalog := staff } "employees"
      "departments, boss:employees!manager(id), employees(*)" = .ok t := ⟨_, rfl⟩
  obtain ⟨t', ht', halike⟩ := htree t ht
  exact ⟨_, _, σ, t, t', hstaff, hc, hσ, ht, ht', halike⟩

end EmbedQuery
