import EmbedQuery.Proofs.Embedding.Composer
import EmbedQuery.Proofs.Relationship.Lookup
import EmbedQuery.Proofs.Schema.Tables

/-!
# Well-typed queries

`Catalog.WellTyped` says of an item, without looking at what resolving does, that it means something
on a table. Resolving leaves an error exactly where an item does not (`errors_selectItem_iff`, by
induction on the item), so a query is resolved without an error exactly when its items are well
typed on the root: `Resolver.resolveText_iff`.
-/

namespace EmbedQuery

namespace Catalog

/-- The table of that name has the column. -/
def HasColumn (c : Catalog) (table column : String) : Prop :=
  ∃ t, c.table? table = some t ∧ column ∈ t.columnNames

/-- An item means something on a table of the catalog. -/
inductive WellTyped (c : Catalog) : String → SelectItem → Prop
  | wildcard (table : String) (span : Span) : WellTyped c table (.wildcard span)
  | count (table : String) (label cast : Option String) (span : Span) :
      WellTyped c table (.count label cast span)
  | derived {table : String} {column : ColumnRef} (hcolumn : c.HasColumn table column.name)
      (hderived : column.cast ≠ none ∨ column.aggregate ≠ none) :
      WellTyped c table (.column column)
  | related {table : String} {column : ColumnRef} {w : Candidate} (hcast : column.cast = none)
      (haggregate : column.aggregate = none) (hway : c.ways table column.name = [w]) :
      WellTyped c table (.column column)
  | plain {table : String} {column : ColumnRef} (hcolumn : c.HasColumn table column.name)
      (hcast : column.cast = none) (haggregate : column.aggregate = none)
      (hways : c.ways table column.name = []) : WellTyped c table (.column column)
  | bare {table : String} {resource : Resource} {w : Candidate}
      (hway : c.fitting table resource.name resource.hint = [w]) :
      WellTyped c table (.bare resource)
  | block {table : String} {resource : Resource} {items : List SelectItem} {w : Candidate}
      (hway : c.fitting table resource.name resource.hint = [w])
      (hitems : ∀ item ∈ items, WellTyped c resource.name item) :
      WellTyped c table (.block resource items)

variable {c : Catalog} {parent child : String} {w : Candidate}

/-- A way leads into a table of the catalog. -/
theorem exists_child (h : w ∈ c.ways parent child) : ∃ t, c.table? child = some t := by
  obtain ⟨hkey, hleads⟩ := mem_ways_iff.1 h
  have hmem : w.key ∈ c.foreignKeys := List.mem_of_getElem? hkey
  unfold ForeignKey.Leads at hleads
  split at hleads
  · obtain ⟨-, rfl⟩ := hleads
    obtain ⟨t, ht, -⟩ := exists_referencesTable hmem
    exact ⟨t, ht⟩
  · obtain ⟨rfl, -⟩ := hleads
    obtain ⟨t, ht, -⟩ := exists_table hmem
    exact ⟨t, ht⟩

theorem exists_child_of_fitting {hint : Option String}
    (h : c.fitting parent child hint = [w]) : ∃ t, c.table? child = some t := by
  have hmem : w ∈ c.fitting parent child hint := h ▸ List.mem_cons_self
  exact exists_child (List.mem_filter.1 hmem).1

theorem wellTyped_column_iff {table : String} {column : ColumnRef} :
    c.WellTyped table (.column column) ↔
      column.isPlain = true ∧ (∃ w, c.ways table column.name = [w]) ∨
        c.HasColumn table column.name ∧
          (column.isPlain = true → c.ways table column.name = []) := by
  have hplain : column.isPlain = true ↔ column.cast = none ∧ column.aggregate = none := by
    simp [ColumnRef.isPlain]
  constructor
  · intro h
    cases h with
    | derived hcolumn hderived =>
      refine Or.inr ⟨hcolumn, ?_⟩
      intro h
      obtain ⟨hcast, haggregate⟩ := hplain.1 h
      rcases hderived with hne | hne
      · exact absurd hcast hne
      · exact absurd haggregate hne
    | related hcast haggregate hway => exact Or.inl ⟨hplain.2 ⟨hcast, haggregate⟩, _, hway⟩
    | plain hcolumn hcast haggregate hways => exact Or.inr ⟨hcolumn, fun _ => hways⟩
  · rintro (⟨h, w, hway⟩ | ⟨hcolumn, hways⟩)
    · obtain ⟨hcast, haggregate⟩ := hplain.1 h
      exact .related hcast haggregate hway
    · by_cases h : column.isPlain = true
      · obtain ⟨hcast, haggregate⟩ := hplain.1 h
        exact .plain hcolumn hcast haggregate (hways h)
      · refine .derived hcolumn (Decidable.or_iff_not_imp_left.2 fun hcast haggregate => h ?_)
        exact hplain.2 ⟨Decidable.not_not.1 hcast, haggregate⟩

theorem wellTyped_bare_iff {table : String} {resource : Resource} :
    c.WellTyped table (.bare resource) ↔
      ∃ w, c.fitting table resource.name resource.hint = [w] := by
  constructor
  · rintro (_ | _ | _ | _ | _ | hway | _)
    exact ⟨_, hway⟩
  · rintro ⟨w, hway⟩
    exact .bare hway

theorem wellTyped_block_iff {table : String} {resource : Resource} {items : List SelectItem} :
    c.WellTyped table (.block resource items) ↔
      (∃ w, c.fitting table resource.name resource.hint = [w]) ∧
        ∀ item ∈ items, c.WellTyped resource.name item := by
  constructor
  · rintro (_ | _ | _ | _ | _ | _ | ⟨hway, hitems⟩)
    exact ⟨⟨_, hway⟩, hitems⟩
  · rintro ⟨⟨w, hway⟩, hitems⟩
    exact .block hway hitems

end Catalog

/-! ### Errors of parts -/

theorem nodeErrors_append (nodes more : List EmbeddingNode) :
    nodeErrors (nodes ++ more) = nodeErrors nodes ++ nodeErrors more := by
  induction nodes with
  | nil => rfl
  | cons node nodes ih => rw [List.cons_append, nodeErrors, nodeErrors, ih, List.append_assoc]

theorem nodeErrors_singleton (node : EmbeddingNode) : nodeErrors [node] = node.errors := by
  rw [nodeErrors, nodeErrors, List.append_nil]

namespace Resolver

variable (r : Resolver) {table : Table}

theorem isRelated_iff {name : String} :
    r.isRelated table name = true ↔ r.catalog.ways table.name name ≠ [] := by
  rw [isRelated, candidates_eq_ways, Bool.and_eq_true]
  constructor
  · rintro ⟨-, hways⟩ hnil
    rw [hnil] at hways
    cases hways
  · intro hways
    obtain ⟨w, hw⟩ := List.exists_mem_of_ne_nil _ hways
    obtain ⟨t, ht⟩ := Catalog.exists_child hw
    exact ⟨by rw [ht, Option.isSome_some], by simpa using hways⟩

/-- A plain name that some way leads to is embedded, whether there is a column of the name or not. -/
theorem selectColumn_of_related {c : ColumnRef} (hplain : c.isPlain = true)
    (hways : r.catalog.ways table.name c.name ≠ []) :
    r.selectColumn table c = .ofNode (r.embed table c.toResource Table.allColumns) := by
  rw [selectColumn, if_pos (Bool.and_eq_true_iff.2 ⟨hplain, r.isRelated_iff.2 hways⟩)]

/-- A name that no way leads to is looked up among the columns. -/
theorem selectColumn_of_unrelated {c : ColumnRef}
    (hways : r.catalog.ways table.name c.name = []) :
    r.selectColumn table c =
      match table.column? c.name with
      | none => .ofNode (.failed (some c.key) (.columnNotFound table.name c.name))
      | some source =>
        .ofField ⟨c.key, some c.name, c.cast, c.aggregate, source.nullableUnder c.aggregate⟩ := by
  have hnot : ¬(c.isPlain && r.isRelated table c.name) = true := fun h =>
    r.isRelated_iff.1 (Bool.and_eq_true_iff.1 h).2 hways
  rw [selectColumn]
  exact if_neg hnot

/-- A look-up that succeeds leads into a table of the catalog. -/
theorem exists_target {parent child : String} {hint : Option String} {found : Relationship}
    (h : r.relationship parent child hint = .ok found) :
    ∃ target, r.catalog.table? child = some target := by
  obtain ⟨w, hway, -⟩ := (r.relationship_eq_ok_iff parent child hint found).1 h
  exact Catalog.exists_child_of_fitting hway

/-- Either no relationship is found, and a resource is an error whatever its list means, or it is
embedded through the one that is found, with what its list means on the table it names. -/
theorem embed_cases (parent : Table) (resource : Resource) :
    (∃ error, r.relationship parent.name resource.name resource.hint = .error error ∧
        ∀ select, r.embed parent resource select =
          .failed (some resource.key) (.relationship error)) ∨
      ∃ found target, r.relationship parent.name resource.name resource.hint = .ok found ∧
        r.catalog.table? resource.name = some target ∧
        ∀ select, r.embed parent resource select =
          .resolved (r.embedding resource found target (select target).fields)
            (select target).children := by
  cases hfound : r.relationship parent.name resource.name resource.hint with
  | error error => exact .inl ⟨error, rfl, embed_eq_failed hfound⟩
  | ok found =>
    obtain ⟨target, htarget⟩ := r.exists_target hfound
    exact .inr ⟨found, target, rfl, htarget, embed_eq_resolved hfound htarget⟩

/-- A resource is embedded without an error exactly when its hint leaves one way and its list means
something on the table it names. -/
theorem errors_embed_iff (resource : Resource) (select : Table → Selection) :
    (r.embed table resource select).errors = [] ↔
      (∃ w, r.catalog.fitting table.name resource.name resource.hint = [w]) ∧
        ∀ target, r.catalog.table? resource.name = some target →
          nodeErrors (select target).children = [] := by
  have hfound := r.relationship_eq_ok_iff table.name resource.name resource.hint
  rcases r.embed_cases table resource with
    ⟨error, herror, hembed⟩ | ⟨found, target, hok, htarget, hembed⟩
  · rw [hembed]
    refine iff_of_false nofun ?_
    rintro ⟨⟨w, hway⟩, -⟩
    cases herror.symm.trans ((hfound _).2 ⟨w, hway, rfl⟩)
  · obtain ⟨w, hway, -⟩ := (hfound found).1 hok
    simp only [hembed, htarget, EmbeddingNode.errors, hway]
    simp

/-! ### Errors of items -/

theorem mem_columnNames_iff {name : String} :
    name ∈ table.columnNames ↔ table.column? name ≠ none := by
  simp [Table.columnNames, Table.column?]

theorem hasColumn_iff (htable : r.catalog.table? table.name = some table) {name : String} :
    r.catalog.HasColumn table.name name ↔ name ∈ table.columnNames := by
  simp [Catalog.HasColumn, htable]

theorem errors_selectColumn_iff (htable : r.catalog.table? table.name = some table)
    (column : ColumnRef) :
    nodeErrors (r.selectColumn table column).children = [] ↔
      r.catalog.WellTyped table.name (.column column) := by
  rw [Catalog.wellTyped_column_iff, r.hasColumn_iff htable, mem_columnNames_iff]
  by_cases hembed : (column.isPlain && r.isRelated table column.name) = true
  · obtain ⟨hplain, hrelated⟩ := Bool.and_eq_true_iff.1 hembed
    have hways := r.isRelated_iff.1 hrelated
    rw [selectColumn, if_pos hembed]
    show nodeErrors [_] = [] ↔ _
    have hnone : r.catalog.fitting table.name column.toResource.name column.toResource.hint =
        r.catalog.ways table.name column.name := Catalog.fitting_none _ _ _
    rw [nodeErrors_singleton, errors_embed_iff, hnone]
    constructor
    · rintro ⟨hway, -⟩
      exact Or.inl ⟨hplain, hway⟩
    · rintro (⟨-, hway⟩ | ⟨-, hnil⟩)
      · exact ⟨hway, fun _ _ => rfl⟩
      · exact absurd (hnil hplain) hways
  -- No related table has the name of a plain column here, so the column is looked up.
  · have hnil (hplain : column.isPlain = true) : r.catalog.ways table.name column.name = [] :=
      Decidable.byContradiction fun hways =>
        hembed (Bool.and_eq_true_iff.2 ⟨hplain, r.isRelated_iff.2 hways⟩)
    rw [selectColumn, if_neg hembed]
    constructor
    · intro h
      refine Or.inr ⟨?_, hnil⟩
      intro hnone
      rw [hnone] at h
      cases h
    · rintro (⟨hplain, w, hway⟩ | ⟨hsome, -⟩)
      · cases (hnil hplain).symm.trans hway
      · obtain ⟨source, hsource⟩ := Option.ne_none_iff_exists'.1 hsome
        rw [hsource]
        rfl

mutual

/-- An item is resolved without an error exactly when it is well typed. -/
theorem errors_selectItem_iff (r : Resolver) : ∀ (item : SelectItem) {table : Table},
    r.catalog.table? table.name = some table →
      (nodeErrors (r.selectItem table item).children = [] ↔
        r.catalog.WellTyped table.name item)
  | .wildcard span, table, _ => iff_of_true rfl (.wildcard _ _)
  | .column column, table, htable => r.errors_selectColumn_iff htable column
  | .count label cast span, table, _ => iff_of_true rfl (.count _ _ _ _)
  | .bare resource, table, _ => by
    rw [Catalog.wellTyped_bare_iff]
    show nodeErrors [_] = [] ↔ _
    rw [nodeErrors_singleton, errors_embed_iff]
    exact and_iff_left fun _ _ => rfl
  | .block resource items, table, _ => by
    rw [Catalog.wellTyped_block_iff]
    show nodeErrors [_] = [] ↔ _
    rw [nodeErrors_singleton, errors_embed_iff]
    refine and_congr_right fun ⟨w, hway⟩ => ?_
    -- The list is judged on the table named, which is there since a way leads into it.
    obtain ⟨target, htarget⟩ := Catalog.exists_child_of_fitting hway
    have hname : target.name = resource.name := name_of_findTable htarget
    rw [← hname] at htarget ⊢
    rw [← errors_selectList_iff r items htarget]
    constructor
    · intro h
      exact h target htarget
    · intro h target' htarget'
      cases htarget.symm.trans htarget'
      exact h
  | .invalid error discarded, table, _ => iff_of_false nofun nofun

/-- A list is resolved without an error exactly when its items are well typed. -/
theorem errors_selectList_iff (r : Resolver) : ∀ (items : List SelectItem) {table : Table},
    r.catalog.table? table.name = some table →
      (nodeErrors (r.selectList table items).children = [] ↔
        ∀ item ∈ items, r.catalog.WellTyped table.name item)
  | [], table, _ => iff_of_true rfl nofun
  | item :: items, table, htable => by
    rw [List.forall_mem_cons, ← errors_selectItem_iff r item htable,
      ← errors_selectList_iff r items htable]
    show nodeErrors (_ ++ _) = [] ↔ _
    rw [nodeErrors_append, List.append_eq_nil_iff]

end

/-- A query is resolved without an error exactly when its items are well typed; a query without
items selects every column. -/
theorem errors_selectQuery_iff (htable : r.catalog.table? table.name = some table)
    (query : QueryTree) :
    nodeErrors (r.selectQuery table query).children = [] ↔
      ∀ item ∈ query.items, r.catalog.WellTyped table.name item := by
  rw [← errors_selectList_iff r query.items htable]
  unfold selectQuery
  split
  · next hnil =>
    rw [hnil]
    exact iff_of_true rfl rfl
  · exact Iff.rfl

end Resolver

/-! ### Numbered trees -/

mutual

theorem EmbeddingNode.flatten_clean_iff : ∀ (next : Nat) (node : EmbeddingNode),
    (∀ n ∈ node.flatten next, n.isFailed = false) ↔ node.errors = []
  | next, .resolved embedding children => by
    have hchildren := flattenNodes_clean_iff next children
    simpa [EmbeddingNode.flatten, EmbeddingNode.errors, EmbeddingArena.Node.isFailed,
      or_imp, forall_and] using hchildren
  | next, .failed key error => by
    simp [EmbeddingNode.flatten, EmbeddingNode.errors, EmbeddingArena.Node.isFailed]

/-- The numbered parts are no errors exactly when there are no errors. -/
theorem flattenNodes_clean_iff : ∀ (next : Nat) (nodes : List EmbeddingNode),
    (∀ n ∈ (flattenNodes next nodes).2, n.isFailed = false) ↔ nodeErrors nodes = []
  | next, [] => by simp [flattenNodes, nodeErrors]
  | next, node :: nodes => by
    have hnode := node.flatten_clean_iff next
    have hnodes := flattenNodes_clean_iff (next + (node.flatten next).length) nodes
    simp [flattenNodes, nodeErrors, or_imp, forall_and, hnode, hnodes]

end

namespace Resolver

theorem resolve_of_table {r : Resolver} {root : String} {table : Table}
    (htable : r.catalog.table? root = some table) (query : QueryTree) :
    ∃ t, r.resolve root query = .ok t ∧ t.children = (r.selectQuery table query).children := by
  rw [resolve, htable]
  exact ⟨_, rfl, rfl⟩

/-- On a root in the catalog, every query has a tree, and it is free of errors exactly when every
item of the query is well typed on the root. On any other root there is no tree. -/
theorem resolveText_iff (r : Resolver) (root query : String) :
    (root ∈ r.catalog.tables.map Table.name →
        ∃ t, r.resolveText root query = .ok t ∧
          ((∀ n ∈ t.arena.nodes, n.isFailed = false) ↔
            ∀ item ∈ (QueryTree.parse query).items, r.catalog.WellTyped root item)) ∧
      (root ∉ r.catalog.tables.map Table.name →
        r.resolveText root query = .error (.unknownTable root)) := by
  rw [← Catalog.table?_eq_none_iff, resolveText]
  constructor
  · intro hroot
    cases htable : r.catalog.table? root with
    | none => exact absurd hroot (Catalog.table?_eq_none_iff.1 htable)
    | some table =>
      obtain ⟨t, ht, hchildren⟩ := resolve_of_table htable (QueryTree.parse query)
      obtain rfl : table.name = root := name_of_findTable htable
      refine ⟨t, ht, (flattenNodes_clean_iff 0 t.children).trans ?_⟩
      rw [hchildren, errors_selectQuery_iff r htable]
  · intro hnone
    rw [resolve, hnone]

end Resolver

end EmbedQuery
