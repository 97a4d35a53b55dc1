import EmbedQuery.Proofs.Embedding.Consistency
import EmbedQuery.Report

/-!
# Listed ways and what a name means

The ways from a table to a name are listed for a reader, looked through for the one that is meant,
and asked about when a name stands alone in a query, since it may be a table or a column. The three
agree (`Resolver.rows_agree`): without a row there is no relationship and the name is a column; with
one row the relationship is the one it shows and the name is embedded through it; with several a
hint is needed, and the name is an error that lists their keys. Columns of that name count in the
first case only.

All three come from one list, the ways of the catalog, each of which is one row (`rows_eq_map`).
-/

namespace EmbedQuery

/-- A way as listed. -/
def Resolver.row (r : Resolver) (w : Candidate) : RelationshipRow where
  constraint := w.key.name
  direction := w.direction
  cardinality := r.catalog.cardinality w
  source := tableWithColumns w.key.table w.key.columns
  target := tableWithColumns w.key.referencesTable w.key.referencesColumns

/-- A row shows a relationship: its direction, its cardinality, and the name and the columns of its
foreign key. -/
structure RelationshipRow.Shows (c : Catalog) (row : RelationshipRow) (found : Relationship) :
    Prop where
  constraint : row.constraint = found.constraint
  direction : row.direction = found.direction
  cardinality : row.cardinality = found.cardinality
  key : ∃ k, c.foreignKeys[found.position]? = some k ∧ k.name = row.constraint ∧
    row.source = tableWithColumns k.table k.columns ∧
    row.target = tableWithColumns k.referencesTable k.referencesColumns

namespace Resolver

variable (r : Resolver) {table : Table} {parent child name : String} {row : RelationshipRow}

theorem rows_eq_map (parent child : String) :
    r.rows parent child = (r.catalog.ways parent child).map r.row := by
  rw [rows, candidates_eq_ways]
  rfl

theorem rows_eq_nil_iff_ways : r.rows parent child = [] ↔ r.catalog.ways parent child = [] := by
  rw [rows_eq_map, List.map_eq_nil_iff]

theorem map_constraint_rows (parent child : String) :
    (r.rows parent child).map RelationshipRow.constraint =
      (r.catalog.ways parent child).map (·.key.name) := by
  rw [rows_eq_map, List.map_map]
  rfl

/-! ### The look-up -/

theorem relationship_of_no_rows (h : r.rows parent child = []) :
    r.relationship parent child none = .error (.unknown parent child) := by
  rw [rows_eq_nil_iff_ways] at h
  refine r.relationship_of_nil parent child none ?_
  rwa [Catalog.fitting_none]

/-- One row is what the look-up chooses. -/
theorem exists_relationship_of_row (h : r.rows parent child = [row]) :
    ∃ found, r.relationship parent child none = .ok found ∧ row.Shows r.catalog found := by
  rw [rows_eq_map, List.map_eq_singleton_iff] at h
  obtain ⟨w, hway, rfl⟩ := h
  have hmem : w ∈ r.catalog.ways parent child := hway ▸ List.mem_cons_self
  obtain ⟨hkey, -⟩ := Catalog.mem_ways_iff.1 hmem
  refine ⟨r.chosen parent child w, ?_, rfl, rfl, rfl, w.key, hkey, rfl, rfl, rfl⟩
  rw [relationship_eq_ok_iff, Catalog.fitting_none]
  exact ⟨w, hway, rfl⟩

theorem relationship_of_several_rows (h : 1 < (r.rows parent child).length) :
    r.relationship parent child none =
      .error (.ambiguous parent child
        ((r.rows parent child).map RelationshipRow.constraint)) := by
  rw [rows_eq_map, List.length_map] at h
  have hseveral := r.relationship_of_several parent child none
  rw [Catalog.fitting_none] at hseveral
  rw [hseveral h, map_constraint_rows]

/-- There are no rows, there is one, or there are several, and the look-up says which. -/
theorem rows_cases (parent child : String) :
    (r.rows parent child = [] ∧
        r.relationship parent child none = .error (.unknown parent child)) ∨
      (∃ row found, r.rows parent child = [row] ∧
        r.relationship parent child none = .ok found) ∨
      1 < (r.rows parent child).length ∧
        r.relationship parent child none =
          .error (.ambiguous parent child
            ((r.rows parent child).map RelationshipRow.constraint)) := by
  rcases h : r.rows parent child with _ | ⟨row, _ | ⟨row', rows⟩⟩
  · exact .inl ⟨rfl, r.relationship_of_no_rows h⟩
  · obtain ⟨found, hfound, -⟩ := r.exists_relationship_of_row h
    exact .inr (.inl ⟨row, found, rfl, hfound⟩)
  · have hlength : 1 < (r.rows parent child).length := by simp [h]
    exact .inr (.inr ⟨by simp, h ▸ r.relationship_of_several_rows hlength⟩)

theorem exists_row_iff :
    (∃ row, r.rows parent child = [row]) ↔
      ∃ found, r.relationship parent child none = .ok found := by
  rcases r.rows_cases parent child with
    ⟨hrows, herror⟩ | ⟨row, found, hrow, hfound⟩ | ⟨hlength, herror⟩
  · simp [hrows, herror]
  · simp [hrow, hfound]
  · refine iff_of_false ?_ (by simp [herror])
    rintro ⟨row, hrow⟩
    simp [hrow] at hlength

theorem rows_eq_nil_iff :
    r.rows parent child = [] ↔
      r.relationship parent child none = .error (.unknown parent child) := by
  rcases r.rows_cases parent child with
    ⟨hrows, herror⟩ | ⟨row, found, hrow, hfound⟩ | ⟨hlength, herror⟩
  · exact iff_of_true hrows herror
  · simp [hrow, hfound]
  · exact iff_of_false (List.ne_nil_of_length_pos (by omega)) (by simp [herror])

theorem one_lt_length_rows_iff :
    1 < (r.rows parent child).length ↔
      r.relationship parent child none =
        .error (.ambiguous parent child
          ((r.rows parent child).map RelationshipRow.constraint)) := by
  rcases r.rows_cases parent child with
    ⟨hrows, herror⟩ | ⟨row, found, hrow, hfound⟩ | ⟨hlength, herror⟩
  · simp [hrows, herror]
  · simp [hrow, hfound]
  · exact iff_of_true hlength herror

/-! ### The name in a query -/

/-- A plain name with rows is embedded, with all columns of its table. -/
theorem selectItem_of_rows {column : ColumnRef} (hplain : column.isPlain = true)
    (h : r.rows table.name column.name ≠ []) :
    r.selectItem table (.column column) =
      .ofNode (r.embed table column.toResource Table.allColumns) :=
  r.selectColumn_of_related hplain (mt r.rows_eq_nil_iff_ways.2 h)

/-- The ways from a table to a name are listed in as many rows as there are ways. Without a hint, a
look-up finds the relationship of the one row, or says that there is none, or names the keys of
several; and the name alone in a query is a column, or is embedded through the one row, or is the
error of several, whether the table has a column of that name or not. -/
theorem rows_agree (r : Resolver) (table : Table) (name : String) :
    ((∃ row, r.rows table.name name = [row]) ↔
        ∃ found, r.relationship table.name name none = .ok found) ∧
      (∀ row found, r.rows table.name name = [row] →
        r.relationship table.name name none = .ok found → row.Shows r.catalog found) ∧
      (r.rows table.name name = [] ↔
        r.relationship table.name name none = .error (.unknown table.name name)) ∧
      (1 < (r.rows table.name name).length ↔
        r.relationship table.name name none =
          .error (.ambiguous table.name name
            ((r.rows table.name name).map RelationshipRow.constraint))) ∧
      ∀ (label : Option String) (span : Span),
        (r.rows table.name name = [] →
          r.selectItem table (.column { name, label, span }) =
            match table.column? name with
            | some column => .ofField ⟨label.getD name, some name, none, none, column.nullable⟩
            | none => .ofNode (.failed (some (label.getD name)) (.columnNotFound table.name name))) ∧
        (∀ row, r.rows table.name name = [row] →
          ∃ found e,
            r.selectItem table (.column { name, label, span }) = .ofNode (.resolved e []) ∧
              e.key = label.getD name ∧ e.table = name ∧ e.relationship = some found ∧
              row.Shows r.catalog found) ∧
        (1 < (r.rows table.name name).length →
          r.selectItem table (.column { name, label, span }) =
            .ofNode (.failed (some (label.getD name))
              (.relationship (.ambiguous table.name name
                ((r.rows table.name name).map RelationshipRow.constraint))))) := by
  refine ⟨r.exists_row_iff, ?_, r.rows_eq_nil_iff, r.one_lt_length_rows_iff, ?_⟩
  · intro row found hrow hfound
    obtain ⟨found', hfound', hshows⟩ := r.exists_relationship_of_row hrow
    cases hfound.symm.trans hfound'
    exact hshows
  · intro label span
    let column : ColumnRef := { name, label, span }
    have hrelated (hne : r.rows table.name name ≠ []) : r.selectItem table (.column column) =
        .ofNode (r.embed table column.toResource Table.allColumns) :=
      r.selectItem_of_rows rfl hne
    refine ⟨fun hnone => ?_, fun row hrow => ?_, fun hseveral => ?_⟩
    · have hways := r.rows_eq_nil_iff_ways.1 hnone
      refine (@selectColumn_of_unrelated r table column hways).trans ?_
      cases table.column? name <;> rfl
    · have hne : r.rows table.name name ≠ [] := by simp [hrow]
      obtain ⟨found, hfound, hshows⟩ := r.exists_relationship_of_row hrow
      obtain ⟨target, htarget⟩ := r.exists_target hfound
      have hembed := @embed_eq_resolved r table target column.toResource found hfound htarget
        Table.allColumns
      exact ⟨found, _, (hrelated hne).trans (congrArg _ hembed), rfl, name_of_findTable htarget, rfl,
        hshows⟩
    · have hne : r.rows table.name name ≠ [] := List.ne_nil_of_length_pos (by omega)
      have hembed := @embed_eq_failed r table column.toResource _
        (r.relationship_of_several_rows hseveral) Table.allColumns
      exact (hrelated hne).trans (congrArg _ hembed)

end Resolver

end EmbedQuery
