import EmbedQuery.Query.Arena
import EmbedQuery.Query.Canonical
import EmbedQuery.Query.Parser

/-!
# Spans in queries

Spans record where something stands and decide nothing. `mapSpans f` applies a map to every span of
a token, an error, an item or a parser, and `eraseSpans` forgets them all.

Errors, the canonical form and the numbering of a tree are what they were once its spans are mapped
(`listErrors_mapSpansList`, `itemTokens_mapSpansList`, `QueryTree.arena_mapSpans`). A map respects
joining (`Span.Joining`) when it may be applied before or after spans are joined, and forgetting
them does: what is to be shown about the shape of a tree can be shown of a tree without spans.
-/

namespace EmbedQuery

/-! ### Mapping spans -/

/-- A map that may be applied before or after two spans are joined. -/
def Span.Joining (f : Span → Span) : Prop := ∀ s t, f (s.cover t) = (f s).cover (f t)

/-- Forgetting spans respects joining. -/
theorem Span.joining_const_default : Span.Joining fun _ => {} := fun _ _ => rfl

/-- The token with its span mapped. -/
def Token.mapSpans (f : Span → Span) (t : Token) : Token := { t with span := f t.span }

/-- The error with its span mapped. -/
def ParseError.mapSpans (f : Span → Span) (e : ParseError) : ParseError :=
  { e with span := f e.span }

/-- The column with its span mapped. -/
def ColumnRef.mapSpans (f : Span → Span) (c : ColumnRef) : ColumnRef := { c with span := f c.span }

/-- The resource with its span mapped. -/
def Resource.mapSpans (f : Span → Span) (r : Resource) : Resource := { r with span := f r.span }

mutual

/-- The item with every span in it mapped. -/
def SelectItem.mapSpans (f : Span → Span) : SelectItem → SelectItem
  | .wildcard span => .wildcard (f span)
  | .column column => .column (column.mapSpans f)
  | .count label cast span => .count label cast (f span)
  | .bare resource => .bare (resource.mapSpans f)
  | .block resource items => .block (resource.mapSpans f) (mapSpansList f items)
  | .invalid error discarded => .invalid (error.mapSpans f) (mapSpansList f discarded)

/-- The list with every span in it mapped. -/
def mapSpansList (f : Span → Span) : List SelectItem → List SelectItem
  | [] => []
  | item :: items => item.mapSpans f :: mapSpansList f items

end

theorem mapSpansList_eq_map (f : Span → Span) (items : List SelectItem) :
    mapSpansList f items = items.map (SelectItem.mapSpans f) := by
  induction items with
  | nil => rfl
  | cons item items ih => rw [mapSpansList, ih, List.map_cons]

@[simp] theorem mapSpansList_append (f : Span → Span) (items more : List SelectItem) :
    mapSpansList f (items ++ more) = mapSpansList f items ++ mapSpansList f more := by
  simp [mapSpansList_eq_map]

/-- The query with every span in it mapped. -/
def QueryTree.mapSpans (f : Span → Span) (t : QueryTree) : QueryTree := ⟨mapSpansList f t.items⟩

/-- The query without its spans. -/
def QueryTree.eraseSpans : QueryTree → QueryTree := QueryTree.mapSpans fun _ => {}

/-! ### What does not depend on spans -/

mutual

theorem SelectItem.errors_mapSpans (f : Span → Span) :
    ∀ item : SelectItem, (item.mapSpans f).errors = item.errors.map (ParseError.mapSpans f)
  | .wildcard _ | .column _ | .count .. | .bare _ => rfl
  | .block _ items => by
    rw [SelectItem.mapSpans, SelectItem.errors, SelectItem.errors, listErrors_mapSpansList]
  | .invalid _ _ => rfl

/-- The errors of a mapped list are the mapped errors. -/
theorem listErrors_mapSpansList (f : Span → Span) :
    ∀ items, listErrors (mapSpansList f items) = (listErrors items).map (ParseError.mapSpans f)
  | [] => rfl
  | item :: items => by
    rw [mapSpansList, listErrors, listErrors, item.errors_mapSpans, listErrors_mapSpansList,
      List.map_append]

end

theorem QueryTree.errors_eraseSpans_eq_nil_iff {t : QueryTree} :
    t.eraseSpans.errors = [] ↔ t.errors = [] := by
  rw [errors, eraseSpans, mapSpans, listErrors_mapSpansList, List.map_eq_nil_iff, errors]

mutual

theorem SelectItem.tokens_mapSpans (f : Span → Span) :
    ∀ item : SelectItem, (item.mapSpans f).tokens = item.tokens
  | .wildcard _ | .column _ | .count .. | .bare _ => rfl
  | .block resource items => by
    rw [SelectItem.mapSpans, SelectItem.tokens, SelectItem.tokens, itemTokens_mapSpansList]
    rfl
  | .invalid _ _ => rfl

/-- The canonical form shows no spans. -/
theorem itemTokens_mapSpansList (f : Span → Span) :
    ∀ items, itemTokens (mapSpansList f items) = itemTokens items
  | [] => rfl
  | item :: items => by
    rw [mapSpansList, itemTokens, itemTokens, item.tokens_mapSpans, itemTokens_mapSpansList]

end

/-! ### Numbered queries -/

/-- The flat item with its spans mapped. -/
def Arena.Item.mapSpans (f : Span → Span) : Arena.Item → Arena.Item
  | wildcard span => .wildcard (f span)
  | column c => .column (c.mapSpans f)
  | count label cast span => .count label cast (f span)
  | embed id => .embed id
  | invalid error => .invalid (error.mapSpans f)

/-- The numbered resource with the spans in it mapped. -/
def Arena.Node.mapSpans (f : Span → Span) (n : Arena.Node) : Arena.Node :=
  ⟨n.resource.mapSpans f, n.select.map (·.map (Arena.Item.mapSpans f))⟩

/-- The flat view with every span in it mapped. -/
def Arena.mapSpans (f : Span → Span) (a : Arena) : Arena :=
  ⟨a.items.map (Arena.Item.mapSpans f), a.nodes.map (Arena.Node.mapSpans f)⟩

/-- The flat view without its spans. -/
def Arena.eraseSpans : Arena → Arena := Arena.mapSpans fun _ => {}

mutual

theorem SelectItem.flatten_mapSpans (f : Span → Span) : ∀ (next : Nat) (item : SelectItem),
    (item.mapSpans f).flatten next =
      ((item.flatten next).1.mapSpans f, (item.flatten next).2.map (Arena.Node.mapSpans f))
  | _, .wildcard _ | _, .column _ | _, .count .. | _, .bare _ => by
    simp [SelectItem.mapSpans, SelectItem.flatten, Arena.Item.mapSpans, Arena.Node.mapSpans]
  | next, .block resource items => by
    simp [SelectItem.mapSpans, SelectItem.flatten, flattenList_mapSpansList f next items,
      Arena.Item.mapSpans, Arena.Node.mapSpans]
  | next, .invalid error discarded => by
    simp [SelectItem.mapSpans, SelectItem.flatten, flattenList_mapSpansList f next discarded,
      Arena.Item.mapSpans]

/-- Numbering does not look at spans. -/
theorem flattenList_mapSpansList (f : Span → Span) : ∀ (next : Nat) (items : List SelectItem),
    flattenList next (mapSpansList f items) =
      ((flattenList next items).1.map (Arena.Item.mapSpans f),
        (flattenList next items).2.map (Arena.Node.mapSpans f))
  | _, [] => rfl
  | next, item :: items => by
    simp [mapSpansList, flattenList, item.flatten_mapSpans f next,
      flattenList_mapSpansList f _ items]

end

theorem QueryTree.arena_mapSpans (f : Span → Span) (t : QueryTree) :
    (t.mapSpans f).arena = t.arena.mapSpans f := by
  simp [arena, mapSpans, Arena.mapSpans, flattenList_mapSpansList]

theorem QueryTree.arena_eraseSpans (t : QueryTree) : t.eraseSpans.arena = t.arena.eraseSpans :=
  t.arena_mapSpans _

end EmbedQuery
