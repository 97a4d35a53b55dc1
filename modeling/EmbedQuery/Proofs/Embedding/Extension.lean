import EmbedQuery.Proofs.Embedding.Consistency

/-!
# Tables that a query does not name

A catalog may grow without a query noticing: tables that the query does not name, and foreign keys
from or to them, leave its meaning as it is, down to the places of foreign keys and the numbers of
candidates (`Resolver.resolveText_extended`).

What is added concerns added names only (`Catalog.Extends`). Resolving asks a catalog about the
tables it has come to and the names in the query, and about foreign keys between those, so that all
of its questions have the answers they had (`relationship_extended`, `isRelated_extended`,
`mayBeMissing_extended`). The rest is an induction on the item.
-/

namespace EmbedQuery

/-! ### Names in a query -/

mutual

/-- The names of columns and resources in an item, without those in errors. -/
def SelectItem.names : SelectItem → List String
  | .wildcard _ | .count .. | .invalid .. => []
  | .column column => [column.name]
  | .bare resource => [resource.name]
  | .block resource items => resource.name :: listNames items

/-- The names of columns and resources in a list. -/
def listNames : List SelectItem → List String
  | [] => []
  | item :: items => item.names ++ listNames items

end

/-- The names of columns and resources in a query. -/
def QueryTree.names (t : QueryTree) : List String := listNames t.items

/-! ### Catalogs that grow -/

namespace Catalog

/-- A catalog with more tables, of the names `added`, and with more foreign keys, each from or to
one of them. All that was there is still there, foreign keys at their places. -/
structure Extends (added : List String) (c c' : Catalog) : Prop where
  table?_eq : ∀ name, name ∉ added → c'.table? name = c.table? name
  not_mem_added : ∀ t ∈ c.tables, t.name ∉ added
  foreignKeys : ∃ more, c'.foreignKeys = c.foreignKeys ++ more ∧
    ∀ k ∈ more, k.table ∈ added ∨ k.referencesTable ∈ added

theorem extends_of_ofDocument {d : Document} {tables : List Table} {keys : List ForeignKey}
    {c c' : Catalog} (hc : ofDocument d = .ok c)
    (hc' : ofDocument ⟨d.tables ++ tables, d.foreignKeys ++ keys⟩ = .ok c')
    (hkeys : ∀ k ∈ keys,
      k.table ∈ tables.map Table.name ∨ k.referencesTable ∈ tables.map Table.name) :
    Extends (tables.map Table.name) c c' where
  table?_eq name hname := by
    have hmore : findTable tables name = none := by
      simpa [findTable] using hname
    rw [table?, table?, tables_of_ofDocument hc, tables_of_ofDocument hc', findTable_map_normalize,
      findTable_map_normalize, findTable, List.find?_append]
    exact congrArg _ ((congrArg _ hmore).trans Option.or_none)
  not_mem_added t ht hadded := by
    have hnames := (exists_ofDocument_iff_wellFormed.1 ⟨c', hc'⟩).tables
    rw [List.map_append, List.nodup_append] at hnames
    obtain ⟨-, -, hdisjoint⟩ := hnames
    rw [tables_of_ofDocument hc] at ht
    obtain ⟨u, hu, rfl⟩ := List.mem_map.1 ht
    exact hdisjoint _ (List.mem_map_of_mem hu) _ hadded rfl
  foreignKeys := by
    rw [foreignKeys_of_ofDocument hc, foreignKeys_of_ofDocument hc']
    exact ⟨keys, rfl, hkeys⟩

namespace Extends

variable {added : List String} {c c' : Catalog}

theorem heldBy_eq (h : Extends added c c') {holder other : String} (hholder : holder ∉ added)
    (hother : other ∉ added) (direction : Direction) :
    c'.heldBy holder other direction = c.heldBy holder other direction := by
  obtain ⟨more, hmore, hadded⟩ := h.foreignKeys
  rw [heldBy, hmore, List.zipIdx_append, List.filterMap_append]
  refine (congrArg _ (List.filterMap_eq_nil_iff.2 ?_)).trans (List.append_nil _)
  -- A key that was added is at one side an added table.
  rintro ⟨k, position⟩ hk
  refine if_neg ?_
  rintro ⟨rfl, rfl⟩
  rcases hadded k (List.fst_mem_of_mem_zipIdx hk) with hin | hin
  · exact hholder hin
  · exact hother hin

/-- Between tables that were there, there are the ways that were there. -/
theorem ways_eq (h : Extends added c c') {parent child : String} (hparent : parent ∉ added)
    (hchild : child ∉ added) : c'.ways parent child = c.ways parent child := by
  rw [ways, ways, h.heldBy_eq hparent hchild, h.heldBy_eq hchild hparent]

theorem fitting_eq (h : Extends added c c') {parent child : String} (hparent : parent ∉ added)
    (hchild : child ∉ added) (hint : Option String) :
    c'.fitting parent child hint = c.fitting parent child hint := by
  rw [fitting, fitting, h.ways_eq hparent hchild]

/-- The table that holds a key that was there is the table that held it. -/
theorem table?_of_mem (h : Extends added c c') {k : ForeignKey} (hk : k ∈ c.foreignKeys) :
    c'.table? k.table = c.table? k.table := by
  obtain ⟨t, ht, -⟩ := exists_table hk
  obtain ⟨hmem, hname⟩ := table?_eq_some_iff.1 ht
  exact h.table?_eq _ (hname ▸ h.not_mem_added t hmem)

theorem getElem?_foreignKeys (h : Extends added c c') {i : Nat} {k : ForeignKey}
    (hk : c.foreignKeys[i]? = some k) : c'.foreignKeys[i]? = some k := by
  obtain ⟨more, hmore, -⟩ := h.foreignKeys
  obtain ⟨hlt, -⟩ := List.getElem?_eq_some_iff.1 hk
  rw [hmore, List.getElem?_append_left hlt, hk]

theorem cardinality_eq (h : Extends added c c') {w : Candidate} {parent child : String}
    (hw : w ∈ c.ways parent child) : c'.cardinality w = c.cardinality w := by
  obtain ⟨hkey, -⟩ := mem_ways_iff.1 hw
  rw [cardinality, cardinality, h.table?_of_mem (List.mem_of_getElem? hkey)]

end Extends

end Catalog

/-! ### Resolving on a catalog that grew -/

namespace Resolver

variable {added : List String} {r r' : Resolver}

/-- Between tables that were there, look-ups find what they found. -/
theorem relationship_extended (h : Catalog.Extends added r.catalog r'.catalog)
    {parent child : String} (hparent : parent ∉ added) (hchild : child ∉ added)
    (hint : Option String) :
    r'.relationship parent child hint = r.relationship parent child hint := by
  unfold relationship
  rw [remaining_eq_fitting, remaining_eq_fitting, candidates_eq_ways, candidates_eq_ways,
    h.fitting_eq hparent hchild, h.ways_eq hparent hchild]
  -- Only a way that is left alone is asked for its cardinality.
  rcases hfitting : r.catalog.fitting parent child hint with _ | ⟨w, _ | ⟨v, ws⟩⟩
  · rfl
  · have hmem : w ∈ r.catalog.fitting parent child hint := hfitting ▸ List.mem_cons_self
    have hcardinality := h.cardinality_eq (List.mem_filter.1 hmem).1
    simp only [hcardinality]
  · rfl

theorem isRelated_extended (h : Catalog.Extends added r.catalog r'.catalog) {table : Table}
    {name : String} (htable : table.name ∉ added) (hname : name ∉ added) :
    r'.isRelated table name = r.isRelated table name := by
  rw [Bool.eq_iff_iff, isRelated_iff, isRelated_iff, h.ways_eq htable hname]

theorem mayBeMissing_extended (h : Catalog.Extends added r.catalog r'.catalog)
    {parent child : String} {hint : Option String} {found : Relationship}
    (hfound : r.relationship parent child hint = .ok found) (join : JoinModifier) :
    r'.mayBeMissing found join = r.mayBeMissing found join := by
  obtain ⟨k, hk, -⟩ := (r.connects_of_relationship hfound).key
  have hsource : r'.hasNullableSource found = r.hasNullableSource found := by
    rw [hasNullableSource, hasNullableSource, hk, h.getElem?_foreignKeys hk, Option.any_some,
      Option.any_some, h.table?_of_mem (List.mem_of_getElem? hk)]
  unfold mayBeMissing
  rw [hsource]

theorem embed_extended (h : Catalog.Extends added r.catalog r'.catalog) {parent : Table}
    {resource : Resource} (hparent : parent.name ∉ added) (hresource : resource.name ∉ added)
    {select select' : Table → Selection}
    (hselect : ∀ target, target.name ∉ added → select' target = select target) :
    r'.embed parent resource select' = r.embed parent resource select := by
  unfold embed
  rw [relationship_extended h hparent hresource, h.table?_eq _ hresource]
  cases hfound : r.relationship parent.name resource.name resource.hint with
  | error error => rfl
  | ok found =>
    cases htarget : r.catalog.table? resource.name with
    | none => rfl
    | some target =>
      have hname : target.name ∉ added := name_of_findTable htarget ▸ hresource
      simp only [hselect target hname, mayBeMissing_extended h hfound]

theorem selectColumn_extended (h : Catalog.Extends added r.catalog r'.catalog) {table : Table}
    {column : ColumnRef} (htable : table.name ∉ added) (hcolumn : column.name ∉ added) :
    r'.selectColumn table column = r.selectColumn table column := by
  have hembed : r'.embed table column.toResource Table.allColumns =
      r.embed table column.toResource Table.allColumns :=
    embed_extended h htable hcolumn fun _ _ => rfl
  rw [selectColumn, isRelated_extended h htable hcolumn, hembed, selectColumn]

mutual

theorem selectItem_extended {r r' : Resolver} (h : Catalog.Extends added r.catalog r'.catalog) :
    ∀ (item : SelectItem) {table : Table}, table.name ∉ added →
      (∀ name ∈ item.names, name ∉ added) →
        r'.selectItem table item = r.selectItem table item
  | .wildcard _, _, _, _ | .count .., _, _, _ | .invalid .., _, _, _ => rfl
  | .column column, table, htable, hnames =>
    selectColumn_extended h htable (hnames _ List.mem_cons_self)
  | .bare resource, table, htable, hnames =>
    congrArg Selection.ofNode
      (embed_extended h htable (hnames _ List.mem_cons_self) fun _ _ => rfl)
  | .block resource items, table, htable, hnames => by
    obtain ⟨hresource, hitems⟩ := List.forall_mem_cons.1 hnames
    exact congrArg Selection.ofNode (embed_extended h htable hresource fun target htarget =>
      selectList_extended h items htarget hitems)

/-- A list that names no added table means on a table that was there what it meant. -/
theorem selectList_extended {r r' : Resolver} (h : Catalog.Extends added r.catalog r'.catalog) :
    ∀ (items : List SelectItem) {table : Table}, table.name ∉ added →
      (∀ name ∈ listNames items, name ∉ added) →
        r'.selectList table items = r.selectList table items
  | [], _, _, _ => rfl
  | item :: items, table, htable, hnames => by
    obtain ⟨hitem, hitems⟩ := List.forall_mem_append.1 hnames
    rw [selectList, selectItem_extended h item htable hitem,
      selectList_extended h items htable hitems, selectList]

end

theorem selectQuery_extended (h : Catalog.Extends added r.catalog r'.catalog) {table : Table}
    {query : QueryTree} (htable : table.name ∉ added)
    (hquery : ∀ name ∈ query.names, name ∉ added) :
    r'.selectQuery table query = r.selectQuery table query := by
  unfold selectQuery
  split
  · rfl
  · exact selectList_extended h _ htable hquery

theorem resolve_extended (h : Catalog.Extends added r.catalog r'.catalog) {root : String}
    {query : QueryTree} (hroot : root ∉ added) (hquery : ∀ name ∈ query.names, name ∉ added) :
    r'.resolve root query = r.resolve root query := by
  unfold resolve
  rw [h.table?_eq root hroot]
  cases htable : r.catalog.table? root with
  | none => rfl
  | some table =>
    have hname : table.name ∉ added := name_of_findTable htable ▸ hroot
    simp only [selectQuery_extended h hname hquery]

/-- Added to a document are tables, and foreign keys each from or to one of them. If both documents
give catalogs, then a query that names none of the added tables has on each table that was there the
outcome that it had. -/
theorem resolveText_extended {r r' : Resolver} {d : Document} {tables : List Table}
    {keys : List ForeignKey} (hc : Catalog.ofDocument d = .ok r.catalog)
    (hc' : Catalog.ofDocument ⟨d.tables ++ tables, d.foreignKeys ++ keys⟩ = .ok r'.catalog)
    (hkeys : ∀ k ∈ keys,
      k.table ∈ tables.map Table.name ∨ k.referencesTable ∈ tables.map Table.name)
    {root query : String} (hroot : root ∈ r.catalog.tables.map Table.name)
    (hquery : ∀ name ∈ (QueryTree.parse query).names, name ∉ tables.map Table.name) :
    r'.resolveText root query = r.resolveText root query := by
  have hextends := Catalog.extends_of_ofDocument hc hc' hkeys
  obtain ⟨table, htable, rfl⟩ := List.mem_map.1 hroot
  exact resolve_extended hextends (hextends.not_mem_added table htable) hquery

end Resolver

/-- Badges of employees, each of which may replace another one. -/
def Table.badges : Table where
  name := "badges"
  columns := [
    { name := "id", primaryKey := true, nullable := false },
    { name := "employee", nullable := false },
    { name := "replaces" }]

/-- The keys of badges. -/
def ForeignKey.ofBadges : List ForeignKey := [
  ⟨"employee_fkey", "badges", ["employee"], "employees", ["id"]⟩,
  ⟨"replaces_fkey", "badges", ["replaces"], "badges", ["id"]⟩]

/-- Badges do not change a table, a table under a hint, a name that is a column of theirs only, and
an error that tells the ways that are left. -/
theorem Resolver.resolveText_extended_staff :
    ∃ r r' : Resolver,
      Catalog.ofDocument Catalog.staff.toDocument = .ok r.catalog ∧
      Catalog.ofDocument
          ⟨Catalog.staff.tables ++ [.badges], Catalog.staff.foreignKeys ++ ForeignKey.ofBadges⟩ =
        .ok r'.catalog ∧
      "employees" ∈ r.catalog.tables.map Table.name ∧
      (QueryTree.parse "departments, boss:employees!manager(id), employee, employees(*)").names =
        ["departments", "employees", "id", "employee", "employees"] ∧
      r'.resolveText "employees" "departments, boss:employees!manager(id), employee, employees(*)" =
        r.resolveText "employees"
          "departments, boss:employees!manager(id), employee, employees(*)" := by
  obtain ⟨c, hc⟩ : ∃ c, Catalog.ofDocument
      ⟨Catalog.staff.tables ++ [.badges], Catalog.staff.foreignKeys ++ ForeignKey.ofBadges⟩ =
        .ok c :=
    Catalog.exists_ofDocument_iff.2 (by decide)
  have hstaff : Catalog.ofDocument Catalog.staff.toDocument = .ok Catalog.staff := rfl
  have hnames : (QueryTree.parse
      "departments, boss:employees!manager(id), employee, employees(*)").names =
        ["departments", "employees", "id", "employee", "employees"] := by
    decide +kernel
  have hroot : "employees" ∈ Catalog.staff.tables.map Table.name := by decide
  refine ⟨{ catalog := Catalog.staff }, { catalog := c }, hstaff, hc, hroot, hnames, ?_⟩
  refine resolveText_extended hstaff hc (by decide) hroot ?_
  rw [hnames]
  decide

end EmbedQuery
