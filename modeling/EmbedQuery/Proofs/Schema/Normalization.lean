import Mathlib.Data.List.Forall2
import EmbedQuery.Proofs.Schema.Validation

/-!
# Catalogs are normal documents

A document may call a column of a primary key nullable, and its catalog does not. That is all in
which the two differ: the catalog, written as a document again, gives itself, and documents that
differ in this alone give the same catalog or the same violation (`Catalog.ofDocument_canonical`).

`Alike` says of columns, tables and documents that they differ in nothing else. Two of them are
alike exactly when their normal forms are equal, and the tables of a catalog are normal forms.
-/

namespace EmbedQuery

/-! ### Documents that differ in nulls of primary keys -/

/-- The same column, but for being nullable where it belongs to the primary key. -/
structure Column.Alike (c c' : Column) : Prop where
  name : c'.name = c.name
  dataType : c'.dataType = c.dataType
  primaryKey : c'.primaryKey = c.primaryKey
  unique : c'.unique = c.unique
  nullable : c.primaryKey = false → c'.nullable = c.nullable

/-- The same table, column by column but for nulls in the primary key. -/
structure Table.Alike (t t' : Table) : Prop where
  name : t'.name = t.name
  columns : List.Forall₂ Column.Alike t.columns t'.columns
  uniqueConstraints : t'.uniqueConstraints = t.uniqueConstraints

/-- The same document, table by table but for nulls in primary keys. -/
structure Document.Alike (d d' : Document) : Prop where
  tables : List.Forall₂ Table.Alike d.tables d'.tables
  foreignKeys : d'.foreignKeys = d.foreignKeys

/-! ### Normal forms -/

namespace Column

variable {c c' : Column}

theorem normalize_of_primaryKey (h : c.primaryKey = true) :
    c.normalize = { c with nullable := false } := if_pos h

theorem normalize_of_not_primaryKey (h : c.primaryKey = false) : c.normalize = c :=
  if_neg (by simp [h])

theorem dataType_normalize (c : Column) : c.normalize.dataType = c.dataType := by
  unfold normalize
  split <;> rfl

theorem primaryKey_normalize (c : Column) : c.normalize.primaryKey = c.primaryKey := by
  unfold normalize
  split <;> rfl

theorem unique_normalize (c : Column) : c.normalize.unique = c.unique := by
  unfold normalize
  split <;> rfl

theorem Alike.normalize_eq (h : c.Alike c') : c.normalize = c'.normalize := by
  obtain ⟨name, dataType, nullable, key, unique⟩ := c
  obtain ⟨name', dataType', nullable', key', unique'⟩ := c'
  obtain ⟨rfl, rfl, hkey, rfl, hnullable⟩ := h
  cases key with
  | true =>
    obtain rfl : key' = true := hkey
    rfl
  | false =>
    obtain rfl : key' = false := hkey
    obtain rfl : nullable' = nullable := hnullable rfl
    rfl

theorem alike_iff (c c' : Column) : c.Alike c' ↔ c.normalize = c'.normalize := by
  refine ⟨Alike.normalize_eq, fun h => ?_⟩
  have hkey : c'.primaryKey = c.primaryKey := by
    rw [← primaryKey_normalize, ← h, primaryKey_normalize]
  refine ⟨?_, ?_, hkey, ?_, ?_⟩
  · rw [← name_normalize, ← h, name_normalize]
  · rw [← dataType_normalize, ← h, dataType_normalize]
  · rw [← unique_normalize, ← h, unique_normalize]
  · intro hnot
    rw [normalize_of_not_primaryKey hnot, normalize_of_not_primaryKey (hkey.trans hnot)] at h
    rw [h]

theorem normalize_normalize (c : Column) : c.normalize.normalize = c.normalize := by
  cases hkey : c.primaryKey with
  | true =>
    rw [normalize_of_primaryKey hkey]
    exact normalize_of_primaryKey hkey
  | false => rw [normalize_of_not_primaryKey hkey, normalize_of_not_primaryKey hkey]

end Column

/-- Where a relation says that normal forms are equal, lists are related one by one exactly when
they have one list of normal forms. -/
theorem forall₂_iff_map_eq {α β : Type} {R : α → α → Prop} {normal : α → β}
    (h : ∀ x y, R x y ↔ normal x = normal y) {xs ys : List α} :
    List.Forall₂ R xs ys ↔ xs.map normal = ys.map normal := by
  rw [← List.forall₂_eq_eq_eq, List.forall₂_map_left_iff, List.forall₂_map_right_iff]
  exact ⟨fun hrel => hrel.imp fun x y => (h x y).1, fun heq => heq.imp fun x y => (h x y).2⟩

namespace Table

theorem alike_iff (t t' : Table) : t.Alike t' ↔ t.normalize = t'.normalize := by
  constructor
  · rintro ⟨hname, hcolumns, hconstraints⟩
    rw [forall₂_iff_map_eq Column.alike_iff] at hcolumns
    rw [normalize, normalize, hcolumns, hname, hconstraints]
  · intro h
    refine ⟨(congrArg name h).symm, ?_, (congrArg uniqueConstraints h).symm⟩
    exact (forall₂_iff_map_eq Column.alike_iff).2 (congrArg columns h)

theorem normalize_normalize (t : Table) : t.normalize.normalize = t.normalize := by
  simp [normalize, Function.comp_def, Column.normalize_normalize]

end Table

theorem Document.alike_iff {d d' : Document} : d.Alike d' ↔
    d.tables.map Table.normalize = d'.tables.map Table.normalize ∧
      d.foreignKeys = d'.foreignKeys := by
  rw [← forall₂_iff_map_eq Table.alike_iff]
  constructor
  · rintro ⟨htables, hkeys⟩
    exact ⟨htables, hkeys.symm⟩
  · rintro ⟨htables, hkeys⟩
    exact ⟨htables, hkeys.symm⟩

/-! ### Catalogs -/

namespace Catalog

variable {c c' : Catalog} {d d' : Document}

/-- A catalog is its tables and its foreign keys. -/
theorem eq_of_toDocument_eq (h : c.toDocument = c'.toDocument) : c = c' := by
  obtain ⟨tables, keys, _, _⟩ := c
  obtain ⟨tables', keys', _, _⟩ := c'
  obtain ⟨rfl, rfl⟩ := Document.mk.inj h
  rfl

theorem toDocument_of_ofDocument (h : ofDocument d = .ok c) :
    c.toDocument = ⟨d.tables.map Table.normalize, d.foreignKeys⟩ := by
  rw [toDocument, tables_of_ofDocument h, foreignKeys_of_ofDocument h]

/-- Whether a document gives a catalog and which is told by its normal form. -/
theorem ofDocument_eq_of_alike (h : d.Alike d') : ofDocument d' = ofDocument d := by
  obtain ⟨htables, hkeys⟩ := Document.alike_iff.1 h
  have hviolations : violations d'.tables d'.foreignKeys = violations d.tables d.foreignKeys := by
    rw [← violations_map_normalize, ← htables, violations_map_normalize, hkeys]
  cases hd : ofDocument d with
  | error violation =>
    rw [ofDocument_eq_error_iff] at hd ⊢
    rwa [hviolations]
  | ok c =>
    obtain ⟨c', hc'⟩ : ∃ c', ofDocument d' = .ok c' := by
      rw [exists_ofDocument_iff, hviolations, ← exists_ofDocument_iff]
      exact ⟨c, hd⟩
    have hsame : c'.toDocument = c.toDocument := by
      rw [toDocument_of_ofDocument hc', toDocument_of_ofDocument hd, htables, hkeys]
    rw [hc', eq_of_toDocument_eq hsame]

/-- The document of a catalog is the document it was made of, with normal tables. -/
theorem alike_toDocument (h : ofDocument d = .ok c) : d.Alike c.toDocument := by
  rw [toDocument_of_ofDocument h, Document.alike_iff, List.map_map]
  refine ⟨?_, rfl⟩
  simp [Function.comp_def, Table.normalize_normalize]

/-- The document of a catalog differs from the one it was made of in nulls of primary keys only, has
none there, and gives the catalog again. Documents that differ in nulls of primary keys only give
the same catalog or the same violation. -/
theorem ofDocument_canonical (d : Document) :
    (∀ c, ofDocument d = .ok c →
        d.Alike c.toDocument ∧
          (∀ t ∈ c.toDocument.tables, ∀ column ∈ t.columns,
            column.primaryKey = true → column.nullable = false) ∧
          ofDocument c.toDocument = .ok c) ∧
      ∀ d', d.Alike d' → ofDocument d' = ofDocument d := by
  constructor
  · intro c hc
    have halike := alike_toDocument hc
    exact ⟨halike, c.normal, (ofDocument_eq_of_alike halike).trans hc⟩
  · intro d' halike
    exact ofDocument_eq_of_alike halike

end Catalog

end EmbedQuery
