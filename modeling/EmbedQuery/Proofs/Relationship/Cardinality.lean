import Mathlib.Data.Finset.Card
import EmbedQuery.Proofs.Relationship.Lookup
import EmbedQuery.Proofs.Schema.Tables

/-!
# Cardinalities of ways back

Through a foreign key, backwards, at most one row is reached if the columns of the key are a key of
their table. Whether they are is decided by comparing lengths and looking for each column. For
columns without repetitions this finds the keys that list no column twice, and only these
(`Table.coversKey_iff`), so the cardinality is the one that the sets of columns give
(`Resolver.cardinality_reverse_iff`). A unique constraint that names a column twice is taken for a
larger one than it is, and is overlooked. A foreign key that names a column twice can also be taken
for a key that it is not.
-/

namespace EmbedQuery

namespace Table

/-- Columns determine a row: they are the primary key or a unique constraint in any order, or they
are one column that is marked unique. -/
def IsKey (t : Table) (columns : List String) : Prop :=
  columns.toFinset = t.primaryKey.toFinset ∨
    (∃ u ∈ t.uniqueConstraints, columns.toFinset = u.columns.toFinset) ∨
      ∃ column ∈ t.columns, columns = [column.name] ∧ column.unique = true

instance (t : Table) (columns : List String) : Decidable (t.IsKey columns) :=
  inferInstanceAs (Decidable (_ ∨ _ ∨ _))

/-- Columns without repetitions cover the keys that have the same columns, each of them once. -/
theorem coversKey_iff {columns key : List String} (hcolumns : columns.Nodup) :
    coversKey columns key = true ↔ columns.toFinset = key.toFinset ∧ key.Nodup := by
  have hcovers : coversKey columns key = true ↔
      key.length = columns.length ∧ columns.toFinset ⊆ key.toFinset := by
    simp [coversKey, Finset.subset_iff]
  have hcard := List.toFinset_card_of_nodup hcolumns
  rw [hcovers]
  constructor
  · rintro ⟨hlength, hsubset⟩
    have hle : key.toFinset.card ≤ columns.toFinset.card := by
      rw [hcard, ← hlength]
      exact key.toFinset_card_le
    have heq := Finset.eq_of_subset_of_card_le hsubset hle
    have hkey : key.toFinset.card = key.length := by
      rw [← heq, hcard, hlength]
    exact ⟨heq, Multiset.toFinset_card_eq_card_iff_nodup.1 hkey⟩
  · rintro ⟨heq, hkey⟩
    refine ⟨?_, heq.subset⟩
    rw [← hcard, heq, List.toFinset_card_of_nodup hkey]

/-- The table without the unique constraints that name a column twice. -/
def withoutRepeats (t : Table) : Table :=
  { t with uniqueConstraints := t.uniqueConstraints.filter fun u => decide u.columns.Nodup }

/-- Leaving constraints out makes nothing a key. -/
theorem IsKey.of_withoutRepeats {t : Table} {columns : List String}
    (h : t.withoutRepeats.IsKey columns) : t.IsKey columns := by
  obtain hprimary | ⟨u, hu, hcolumns⟩ | hsingle := h
  · exact Or.inl hprimary
  · exact Or.inr (Or.inl ⟨u, List.mem_of_mem_filter hu, hcolumns⟩)
  · exact Or.inr (Or.inr hsingle)

/-- No key is lost if the constraints of just these columns name none of them twice. -/
theorem IsKey.withoutRepeats {t : Table} {columns : List String}
    (hunique : ∀ u ∈ t.uniqueConstraints, u.columns.toFinset = columns.toFinset → u.columns.Nodup)
    (h : t.IsKey columns) : t.withoutRepeats.IsKey columns := by
  obtain hprimary | ⟨u, hu, hcolumns⟩ | hsingle := h
  · exact Or.inl hprimary
  · have hnodup := hunique u hu hcolumns.symm
    exact Or.inr (Or.inl ⟨u, List.mem_filter.2 ⟨hu, decide_eq_true hnodup⟩, hcolumns⟩)
  · exact Or.inr (Or.inr hsingle)

theorem isUniqueKey_iff_coversKey {t : Table} {columns : List String} (hne : columns ≠ []) :
    t.isUniqueKey columns = true ↔
      (∃ name, columns = [name] ∧ (t.column? name).any Column.unique = true) ∨
        coversKey columns t.primaryKey = true ∨
          ∃ u ∈ t.uniqueConstraints, coversKey columns u.columns = true := by
  match columns with
  | [] => exact absurd rfl hne
  | [single] => simp [isUniqueKey, or_assoc]
  | _ :: _ :: _ => simp [isUniqueKey]

end Table

namespace Catalog

variable {c : Catalog} {t : Table}

/-- In a catalog, columns of a table are told to be a key exactly when they are one, by a list
without repetitions. -/
theorem isUniqueKey_iff (ht : t ∈ c.tables) {columns : List String} (hne : columns ≠ [])
    (hcolumns : columns.Nodup) : t.isUniqueKey columns = true ↔ t.withoutRepeats.IsKey columns := by
  have hsingle : (∃ name, columns = [name] ∧ (t.column? name).any Column.unique = true) ↔
      ∃ column ∈ t.withoutRepeats.columns, columns = [column.name] ∧ column.unique = true := by
    simp only [Option.any_eq_true, column?_eq_some_iff ht, Table.withoutRepeats]
    grind
  have hprimary : Table.coversKey columns t.primaryKey = true ↔
      columns.toFinset = t.withoutRepeats.primaryKey.toFinset := by
    rw [Table.coversKey_iff hcolumns, and_iff_left (nodup_primaryKey ht)]
    rfl
  have hconstraints : (∃ u ∈ t.uniqueConstraints, Table.coversKey columns u.columns = true) ↔
      ∃ u ∈ t.withoutRepeats.uniqueConstraints, columns.toFinset = u.columns.toFinset := by
    simp only [Table.coversKey_iff hcolumns, Table.withoutRepeats, List.mem_filter,
      decide_eq_true_eq]
    grind
  rw [Table.isUniqueKey_iff_coversKey hne, hsingle, hprimary, hconstraints, or_comm, or_assoc,
    Table.IsKey]

end Catalog

/-- The way back through a foreign key without repeated columns reaches one row at most exactly when
its columns are a key of their table, by a list without repetitions. So they are a key whenever it
reaches one row at most, and the converse holds as long as no unique constraint of just these
columns names one of them twice. The way forward always reaches one row at most. -/
theorem Resolver.cardinality_reverse_iff (r : Resolver) {position : Nat} {k : ForeignKey}
    (hk : r.catalog.foreignKeys[position]? = some k) (hcolumns : k.columns.Nodup) :
    r.catalog.cardinality ⟨position, k, .forward⟩ = .toOne ∧
      ⟨position, k, .reverse⟩ ∈ r.candidates k.referencesTable k.table ∧
      ∃ t, r.catalog.table? k.table = some t ∧
        (r.catalog.cardinality ⟨position, k, .reverse⟩ = .toOne ↔
          t.withoutRepeats.IsKey k.columns) ∧
        (r.catalog.cardinality ⟨position, k, .reverse⟩ = .toOne → t.IsKey k.columns) ∧
        ((∀ u ∈ t.uniqueConstraints,
            u.columns.toFinset = k.columns.toFinset → u.columns.Nodup) →
          (r.catalog.cardinality ⟨position, k, .reverse⟩ = .toOne ↔ t.IsKey k.columns) ∧
          (r.catalog.cardinality ⟨position, k, .reverse⟩ = .toMany ↔ ¬t.IsKey k.columns)) := by
  have hmem : k ∈ r.catalog.foreignKeys := List.mem_of_getElem? hk
  obtain ⟨t, ht, -⟩ := Catalog.exists_table hmem
  have hway : ⟨position, k, .reverse⟩ ∈ r.candidates k.referencesTable k.table := by
    rw [r.candidates_eq_ways]
    exact Catalog.mem_ways_iff.2 ⟨hk, rfl, rfl⟩
  have hkey := Catalog.isUniqueKey_iff (Catalog.mem_tables_of_table? ht)
    (Catalog.columns_ne_nil hmem) hcolumns
  have hone : r.catalog.cardinality ⟨position, k, .reverse⟩ = .toOne ↔
      t.withoutRepeats.IsKey k.columns := by
    rw [← hkey]
    simp [Catalog.cardinality, ht]
  have hmany : r.catalog.cardinality ⟨position, k, .reverse⟩ = .toMany ↔
      ¬t.withoutRepeats.IsKey k.columns := by
    rw [← hkey]
    simp [Catalog.cardinality, ht]
  refine ⟨rfl, hway, t, ht, hone, fun h => (hone.1 h).of_withoutRepeats, fun hunique => ?_⟩
  have hsame : t.withoutRepeats.IsKey k.columns ↔ t.IsKey k.columns :=
    ⟨Table.IsKey.of_withoutRepeats, Table.IsKey.withoutRepeats hunique⟩
  rw [← hsame]
  exact ⟨hone, hmany⟩

/-- Tickets refer to seats by row and number, and there is one ticket for a number and a row. -/
def Catalog.ticketedSeats : Catalog where
  tables := [
    { name := "seats", columns := [{ name := "row" }, { name := "number" }] },
    { name := "tickets"
      columns := [{ name := "row" }, { name := "number" }, { name := "holder" }]
      uniqueConstraints := [⟨"tickets_seat_key", ["number", "row"]⟩] }]
  foreignKeys := [⟨"tickets_seat_fkey", "tickets", ["row", "number"], "seats", ["row", "number"]⟩]
  sound := by decide
  normal := by decide

/-- The columns of a composite key may come in any order. -/
theorem Resolver.cardinality_reverse_ticketedSeats :
    let c := Catalog.ticketedSeats
    let k : ForeignKey :=
      ⟨"tickets_seat_fkey", "tickets", ["row", "number"], "seats", ["row", "number"]⟩
    c.foreignKeys[0]? = some k ∧ k.columns.Nodup ∧
      (∀ t, c.table? k.table = some t → ∀ u ∈ t.uniqueConstraints, u.columns.Nodup) ∧
      c.cardinality ⟨0, k, .reverse⟩ = .toOne := by
  intro c k
  have hk : c.foreignKeys[0]? = some k := rfl
  have hcolumns : k.columns.Nodup := by decide
  have hunique : ∀ t, c.table? k.table = some t →
      ∀ u ∈ t.uniqueConstraints, u.columns.Nodup := by
    rintro t ⟨⟩
    decide
  obtain ⟨-, -, t, ht, -, -, hreverse⟩ :=
    Resolver.cardinality_reverse_iff { catalog := c } hk hcolumns
  obtain ⟨hone, -⟩ := hreverse fun u hu _ => hunique t ht u hu
  cases ht
  exact ⟨hk, hcolumns, hunique, hone.2 (by decide)⟩

/-- Members of teams, told apart by both names, with a key that lists one of them twice. -/
def Catalog.doubledColumn : Catalog where
  tables := [
    { name := "people", columns := [{ name := "id" }] },
    { name := "members"
      columns := [
        { name := "person", primaryKey := true, nullable := false },
        { name := "team", primaryKey := true, nullable := false }] }]
  foreignKeys := [⟨"members_fkey", "members", ["person", "person"], "people", ["id", "id"]⟩]
  sound := by decide
  normal := by decide

/-- A key that lists a column twice passes for the primary key of two columns, although one of them
is not among its own. -/
theorem Catalog.cardinality_doubledColumn :
    ∃ k t, Catalog.doubledColumn.foreignKeys[0]? = some k ∧
      Catalog.doubledColumn.table? k.table = some t ∧
      Catalog.doubledColumn.cardinality ⟨0, k, .reverse⟩ = .toOne ∧ ¬t.IsKey k.columns :=
  ⟨_, _, rfl, rfl, by decide, by decide⟩

end EmbedQuery
