import EmbedQuery.Embedding.Resolve
import EmbedQuery.Proofs.Embedding.Consistency
import EmbedQuery.Proofs.Query.RoundTrip

/-!
# Spans are not resolved

What a query without errors means does not depend on where its parts stand: a tree means what it
means without its spans (`Resolver.resolve_eraseSpans`). Since a query and its canonical form are
read as one tree up to spans, both are resolved alike on every table: `resolveText_canonical`.

An item that could not be read is left in the tree with its error, and the error tells its place.
So the items have to be free of errors.
-/

namespace EmbedQuery

namespace Resolver

variable (r : Resolver) (f : Span → Span)

theorem embed_mapSpans (table : Table) (resource : Resource) (select : Table → Selection) :
    r.embed table (resource.mapSpans f) select = r.embed table resource select :=
  rfl

theorem selectColumn_mapSpans (table : Table) (column : ColumnRef) :
    r.selectColumn table (column.mapSpans f) = r.selectColumn table column :=
  rfl

mutual

theorem selectItem_mapSpans (r : Resolver) (f : Span → Span) : ∀ (item : SelectItem)
    (table : Table), item.errors = [] →
      r.selectItem table (item.mapSpans f) = r.selectItem table item
  | .wildcard _, _, _ | .count .., _, _ => rfl
  | .column column, table, _ => r.selectColumn_mapSpans f table column
  | .bare resource, table, _ =>
    congrArg Selection.ofNode (r.embed_mapSpans f table resource Table.allColumns)
  | .block resource items, table, h => by
    have hselect : (fun target => r.selectList target (mapSpansList f items)) =
        fun target => r.selectList target items :=
      funext fun target => selectList_mapSpansList r f items target h
    rw [SelectItem.mapSpans, selectItem, selectItem, hselect, embed_mapSpans]
  | .invalid _ _, _, h => absurd h (List.cons_ne_nil _ _)

/-- What a list without errors means on a table does not depend on its spans. -/
theorem selectList_mapSpansList (r : Resolver) (f : Span → Span) : ∀ (items : List SelectItem)
    (table : Table), listErrors items = [] →
      r.selectList table (mapSpansList f items) = r.selectList table items
  | [], _, _ => rfl
  | item :: items, table, h => by
    obtain ⟨hitem, hitems⟩ := List.append_eq_nil_iff.1 h
    rw [mapSpansList, selectList, selectList, selectItem_mapSpans r f item table hitem,
      selectList_mapSpansList r f items table hitems]

end

theorem selectQuery_mapSpans (table : Table) {t : QueryTree} (h : t.errors = []) :
    r.selectQuery table (t.mapSpans f) = r.selectQuery table t := by
  obtain ⟨_ | ⟨item, items⟩⟩ := t
  · rfl
  · exact r.selectList_mapSpansList f (item :: items) table h

/-- What a query without errors means does not depend on its spans. -/
theorem resolve_eraseSpans (root : String) {t : QueryTree} (h : t.errors = []) :
    r.resolve root t.eraseSpans = r.resolve root t := by
  unfold resolve QueryTree.eraseSpans
  simp only [r.selectQuery_mapSpans _ _ h]

/-- The canonical form of a query without errors is resolved as the query is, on every table that is
there and on every name that is none. -/
theorem resolveText_canonical (r : Resolver) (root : String) {query : String}
    (h : (QueryTree.parse query).errors = []) :
    r.resolveText root (QueryTree.parse query).canonical = r.resolveText root query := by
  obtain ⟨herrors, htree⟩ := parse_canonical_eraseSpans h
  unfold resolveText
  rw [← r.resolve_eraseSpans root herrors, htree, r.resolve_eraseSpans root h]

/-- An alias, a hint behind a join modifier, a quoted name, blanks, and a table that is unknown. -/
theorem resolveText_canonical_staff :
    (QueryTree.parse
        "boss : employees !left !manager ( id . max (), \"departments\"), rooms(*)").errors = [] ∧
      Resolver.resolveText { catalog := .staff } "employees"
          (QueryTree.parse
            "boss : employees !left !manager ( id . max (), \"departments\"), rooms(*)").canonical =
        Resolver.resolveText { catalog := .staff } "employees"
          "boss : employees !left !manager ( id . max (), \"departments\"), rooms(*)" := by
  have herrors : (QueryTree.parse
      "boss : employees !left !manager ( id . max (), \"departments\"), rooms(*)").errors = [] := by
    decide +kernel
  exact ⟨herrors, resolveText_canonical _ "employees" herrors⟩

end Resolver

end EmbedQuery
