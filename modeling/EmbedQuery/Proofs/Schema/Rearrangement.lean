import Mathlib.Logic.Equiv.Basic
import EmbedQuery.Proofs.Schema.Tables

/-!
# Documents in another order

Whether a document gives a catalog does not depend on the order in which it lists tables and foreign
keys (`Catalog.exists_ofDocument_iff_of_perm`), and the catalogs of two orders have the same tables
under the same names. What the order shows in are the places of foreign keys: `Catalog.Rearranges`
carries the permutation that takes the place of a key in the one to its place in the other.
-/

namespace EmbedQuery

/-! ### Places in two orders of a list -/

/-- The permutation that keeps the first place and permutes those behind it. -/
def keepFirst (σ : Equiv.Perm ℕ) : Equiv.Perm ℕ where
  toFun
    | 0 => 0
    | i + 1 => σ i + 1
  invFun
    | 0 => 0
    | i + 1 => σ.symm i + 1
  left_inv := by rintro (_ | i) <;> simp
  right_inv := by rintro (_ | i) <;> simp

/-- Two orders of a list are told by a permutation of the places. -/
theorem exists_places_of_perm {α : Type} {xs ys : List α} (h : xs.Perm ys) :
    ∃ σ : Equiv.Perm ℕ, ∀ i, ys[σ i]? = xs[i]? := by
  induction h with
  | nil => exact ⟨Equiv.refl ℕ, fun _ => rfl⟩
  | cons x _ ih =>
    obtain ⟨σ, hσ⟩ := ih
    refine ⟨keepFirst σ, ?_⟩
    rintro (_ | i)
    · rfl
    · exact hσ i
  | swap x y xs =>
    refine ⟨Equiv.swap 0 1, ?_⟩
    rintro (_ | _ | i)
    · rw [Equiv.swap_apply_left]
      rfl
    · rw [Equiv.swap_apply_right]
      rfl
    · rw [Equiv.swap_apply_of_ne_of_ne (by simp) (by simp)]
      rfl
  | trans _ _ ih ih' =>
    obtain ⟨σ, hσ⟩ := ih
    obtain ⟨τ, hτ⟩ := ih'
    exact ⟨σ.trans τ, fun i => (hτ (σ i)).trans (hσ i)⟩

/-! ### Documents -/

theorem HasColumns.perm {tables more : List Table} {table : String} {columns : List String}
    (htables : tables.Perm more) (h : HasColumns tables table columns) :
    HasColumns more table columns := by
  obtain ⟨t, ht, hname, hcolumns⟩ := h
  exact ⟨t, htables.subset ht, hname, hcolumns⟩

theorem Document.WellFormed.perm {d d' : Document} (htables : d.tables.Perm d'.tables)
    (hkeys : d.foreignKeys.Perm d'.foreignKeys) (h : d.WellFormed) : d'.WellFormed where
  tables := (htables.map Table.name).nodup_iff.1 h.tables
  columns t ht := h.columns t (htables.symm.subset ht)
  constraints t ht := h.constraints t (htables.symm.subset ht)
  keys := (hkeys.map _).nodup_iff.1 h.keys
  sides k hk := by
    obtain ⟨hcolumns, hreferences, hlength, hsource, htarget⟩ := h.sides k (hkeys.symm.subset hk)
    exact ⟨hcolumns, hreferences, hlength, hsource.perm htables, htarget.perm htables⟩

namespace Catalog

/-- A document gives a catalog exactly if it does in another order. -/
theorem exists_ofDocument_iff_of_perm {d d' : Document} (htables : d.tables.Perm d'.tables)
    (hkeys : d.foreignKeys.Perm d'.foreignKeys) :
    (∃ c, ofDocument d = .ok c) ↔ ∃ c, ofDocument d' = .ok c := by
  rw [exists_ofDocument_iff_wellFormed, exists_ofDocument_iff_wellFormed]
  exact ⟨.perm htables hkeys, .perm htables.symm hkeys.symm⟩

/-! ### Catalogs -/

/-- A catalog lists the tables and the foreign keys of another one in a different order: the key at
the place `i` of the one is at the place `σ i` of the other. -/
structure Rearranges (σ : Equiv.Perm ℕ) (c c' : Catalog) : Prop where
  tables : c.tables.Perm c'.tables
  foreignKeys : ∀ i, c'.foreignKeys[σ i]? = c.foreignKeys[i]?

theorem exists_rearranges {d d' : Document} (htables : d.tables.Perm d'.tables)
    (hkeys : d.foreignKeys.Perm d'.foreignKeys) {c c' : Catalog} (hc : ofDocument d = .ok c)
    (hc' : ofDocument d' = .ok c') : ∃ σ, Rearranges σ c c' := by
  obtain ⟨σ, hσ⟩ := exists_places_of_perm hkeys
  refine ⟨σ, ?_, ?_⟩
  -- Tables are normalized one by one, keys are left as they are.
  · rw [tables_of_ofDocument hc, tables_of_ofDocument hc']
    exact htables.map Table.normalize
  · rw [foreignKeys_of_ofDocument hc, foreignKeys_of_ofDocument hc']
    exact hσ

/-- A table is found by its name in every order. -/
theorem Rearranges.table?_eq {σ : Equiv.Perm ℕ} {c c' : Catalog} (h : Rearranges σ c c')
    (name : String) : c'.table? name = c.table? name := by
  refine Option.ext fun t => ?_
  rw [table?_eq_some_iff, table?_eq_some_iff]
  exact and_congr_left fun _ => h.tables.symm.mem_iff

end Catalog

end EmbedQuery
