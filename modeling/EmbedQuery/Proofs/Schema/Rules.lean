import Mathlib.Data.List.Nodup
import EmbedQuery.Schema.Catalog

/-!
# The rules of catalogs

What a document has to satisfy to be a catalog, in two forms. `Document.WellFormed` says what holds
of a document without faults. `Document.rules` lists the rules one by one, in the order in which
they are to be checked, and says of each what it is to break it and what is then reported. The two
agree: a document is well-formed if it keeps every rule (`Document.kept_rules_iff`).

A rule is broken at a place, and places are ordered as they stand in the document, so that of
several rules that are broken one is the first (`Rules.First`).
-/

namespace EmbedQuery

/-! ### Rules in order -/

/-- Where something is wrong: the number of the part it is in, the number of the part of that, and
so on. Compared part by part, what is checked before comes before. -/
abbrev Place := List Nat

/-- Rules, given by what breaks them: `rules place v` says that a rule is broken at the place,
which is reported as `v`. -/
abbrev Rules := Place → Violation → Prop

namespace Rules

/-- One rule: what it is to break it, and what is then reported. -/
def rule (broken : Prop) (violation : Violation) : Rules :=
  fun place v => place = [] ∧ broken ∧ v = violation

/-- Rules on each element of a list, given the elements before it. -/
def each {α : Type} (xs : List α) (rules : List α → α → Rules) : Rules
  | [], _ => False
  | i :: place, v => ∃ x, xs[i]? = some x ∧ rules (xs.take i) x place v

/-- Several rules in turn. -/
def inTurn (parts : List Rules) : Rules := each parts fun _ rules => rules

/-- No rule is broken. -/
def Kept (rules : Rules) : Prop := ∀ place v, ¬rules place v

/-- A rule is broken before all others, with the violation `v`. -/
def First (rules : Rules) (v : Violation) : Prop :=
  ∃ place, rules place v ∧
    ∀ place' v', rules place' v' → place < place' ∨ place' = place ∧ v' = v

@[simp]
theorem kept_rule_iff {broken : Prop} {violation : Violation} :
    (rule broken violation).Kept ↔ ¬broken := by
  constructor
  · intro h hbroken
    exact h [] violation ⟨rfl, hbroken, rfl⟩
  · rintro h place v ⟨-, hbroken, -⟩
    exact h hbroken

@[simp]
theorem kept_each_iff {α : Type} {xs : List α} {rules : List α → α → Rules} :
    (each xs rules).Kept ↔ ∀ i x, xs[i]? = some x → (rules (xs.take i) x).Kept := by
  constructor
  · intro h i x hx place v hbroken
    exact h (i :: place) v ⟨x, hx, hbroken⟩
  · intro h place v hbroken
    cases place with
    | nil => exact hbroken
    | cons i place =>
      obtain ⟨x, hx, hbroken⟩ := hbroken
      exact h i x hx place v hbroken

@[simp high]
theorem kept_each_const_iff {α : Type} {xs : List α} {rules : α → Rules} :
    (each xs fun _ => rules).Kept ↔ ∀ x ∈ xs, (rules x).Kept := by
  rw [kept_each_iff]
  simp only [List.mem_iff_getElem?]
  grind

@[simp]
theorem kept_inTurn_iff {parts : List Rules} :
    (inTurn parts).Kept ↔ ∀ rules ∈ parts, rules.Kept :=
  kept_each_const_iff

/-- What is broken first is one violation. -/
theorem First.unique {rules : Rules} {v w : Violation} (hv : rules.First v) (hw : rules.First w) :
    v = w := by
  obtain ⟨place, hbroken, hfirst⟩ := hv
  obtain ⟨place', hbroken', hfirst'⟩ := hw
  rcases hfirst place' w hbroken' with hlt | ⟨-, rfl⟩
  · rcases hfirst' place v hbroken with hgt | ⟨-, rfl⟩
    · exact absurd hgt (List.lt_asymm hlt)
    · rfl
  · rfl

end Rules

open Rules

/-! ### What is to be checked -/

/-- A unique constraint lists columns, and only columns of its table. -/
def UniqueConstraint.rules (t : Table) (u : UniqueConstraint) : Rules :=
  inTurn [
    rule (u.columns = []) (.emptyConstraint u.name),
    each u.columns fun _ column =>
      rule (column ∉ t.columnNames) (.unknownColumn u.name t.name column)]

/-- A table has a name of its own, its columns have different names, and its unique constraints are
sound. -/
def Table.rules (before : List Table) (t : Table) : Rules :=
  inTurn [
    rule (t.name ∈ before.map Table.name) (.duplicateTable t.name),
    each t.columnNames fun before column =>
      rule (column ∈ before) (.duplicateColumn t.name column),
    each t.uniqueConstraints fun _ u => u.rules t]

/-- One side of a foreign key is a table, with the columns listed. -/
def sideRules (tables : List Table) (constraint table : String) (columns : List String) : Rules :=
  inTurn [
    rule (table ∉ tables.map Table.name) (.unknownTable constraint table),
    each columns fun _ column =>
      rule (∃ t ∈ tables, t.name = table ∧ column ∉ t.columnNames)
        (.unknownColumn constraint table column)]

/-- A foreign key has a name of its own among the keys of its table, it has columns on both sides,
equally many, and both sides exist. -/
def ForeignKey.rules (tables : List Table) (before : List ForeignKey) (k : ForeignKey) : Rules :=
  inTurn [
    rule (∃ other ∈ before, other.table = k.table ∧ other.name = k.name)
      (.duplicateConstraint k.table k.name),
    rule (k.columns = [] ∨ k.referencesColumns = []) (.emptyConstraint k.name),
    rule (k.columns.length ≠ k.referencesColumns.length)
      (.columnCountMismatch k.name k.columns.length k.referencesColumns.length),
    sideRules tables k.name k.table k.columns,
    sideRules tables k.name k.referencesTable k.referencesColumns]

/-- First the tables are checked, then the foreign keys. -/
def Document.rules (d : Document) : Rules :=
  inTurn [each d.tables Table.rules, each d.foreignKeys (ForeignKey.rules d.tables)]

/-! ### What holds if nothing is wrong -/

/-- A table of that name is listed, with these columns. -/
def HasColumns (tables : List Table) (table : String) (columns : List String) : Prop :=
  ∃ t ∈ tables, t.name = table ∧ ∀ column ∈ columns, column ∈ t.columnNames

/-- A document is well-formed: names of tables and columns are different, and so are those of the
foreign keys of one table; unique constraints list columns of their tables; foreign keys match
columns with columns, all of which exist. -/
structure Document.WellFormed (d : Document) : Prop where
  tables : (d.tables.map Table.name).Nodup
  columns : ∀ t ∈ d.tables, t.columnNames.Nodup
  constraints : ∀ t ∈ d.tables, ∀ u ∈ t.uniqueConstraints,
    u.columns ≠ [] ∧ ∀ column ∈ u.columns, column ∈ t.columnNames
  keys : (d.foreignKeys.map fun k => (k.table, k.name)).Nodup
  sides : ∀ k ∈ d.foreignKeys,
    k.columns ≠ [] ∧ k.referencesColumns ≠ [] ∧
      k.columns.length = k.referencesColumns.length ∧
      HasColumns d.tables k.table k.columns ∧
      HasColumns d.tables k.referencesTable k.referencesColumns

/-- Elements are different exactly when none of them occurs before itself. -/
theorem nodup_iff_not_mem_take {α : Type} {xs : List α} :
    xs.Nodup ↔ ∀ i x, xs[i]? = some x → x ∉ xs.take i := by
  rw [List.nodup_iff_pairwise_ne, List.pairwise_iff_getElem]
  constructor
  · intro hne j x hx hmem
    obtain ⟨i, hi, rfl⟩ := List.mem_take_iff_getElem.1 hmem
    obtain ⟨hj, heq⟩ := List.getElem?_eq_some_iff.1 hx
    exact hne i j _ hj (by omega) heq.symm
  · intro h i j hi hj hlt heq
    apply h j xs[j] (List.getElem?_eq_getElem hj)
    rw [← heq]
    exact List.mem_take_iff_getElem.2 ⟨i, by omega, rfl⟩

theorem nodup_map_iff_not_mem_take {α β : Type} {key : α → β} {xs : List α} :
    (xs.map key).Nodup ↔ ∀ i x, xs[i]? = some x → key x ∉ (xs.take i).map key := by
  rw [nodup_iff_not_mem_take]
  simp only [List.getElem?_map, List.map_take, Option.map_eq_some_iff]
  grind

/-- Rules on elements whose keys have to be different. -/
theorem kept_each_keyed_iff {α β : Type} {key : α → β} {xs : List α} {rules : List α → α → Rules}
    {own : α → Prop}
    (h : ∀ before x, (rules before x).Kept ↔ key x ∉ before.map key ∧ own x) :
    (each xs rules).Kept ↔ (xs.map key).Nodup ∧ ∀ x ∈ xs, own x := by
  simp only [kept_each_iff, h, nodup_map_iff_not_mem_take, List.mem_iff_getElem?]
  grind

theorem UniqueConstraint.kept_rules_iff {t : Table} {u : UniqueConstraint} :
    (u.rules t).Kept ↔ u.columns ≠ [] ∧ ∀ column ∈ u.columns, column ∈ t.columnNames := by
  simp [rules]

theorem Table.kept_rules_iff {before : List Table} {t : Table} :
    (t.rules before).Kept ↔ t.name ∉ before.map Table.name ∧ t.columnNames.Nodup ∧
      ∀ u ∈ t.uniqueConstraints,
        u.columns ≠ [] ∧ ∀ column ∈ u.columns, column ∈ t.columnNames := by
  simp [rules, nodup_iff_not_mem_take, UniqueConstraint.kept_rules_iff]

/-- Where names of tables are different, there is no choice of the table whose columns are meant. -/
theorem kept_sideRules_iff {tables : List Table} (htables : (tables.map Table.name).Nodup)
    {constraint table : String} {columns : List String} :
    (sideRules tables constraint table columns).Kept ↔ HasColumns tables table columns := by
  have hkept : (sideRules tables constraint table columns).Kept ↔
      (∃ t ∈ tables, t.name = table) ∧
        ∀ column ∈ columns, ∀ t ∈ tables, t.name = table → column ∈ t.columnNames := by
    simp [sideRules]
  rw [hkept]
  constructor
  · rintro ⟨⟨t, ht, hname⟩, hcolumns⟩
    exact ⟨t, ht, hname, fun column hcolumn => hcolumns column hcolumn t ht hname⟩
  · rintro ⟨t, ht, rfl, hcolumns⟩
    refine ⟨⟨t, ht, rfl⟩, ?_⟩
    intro column hcolumn t' ht' hname
    rw [List.inj_on_of_nodup_map htables ht' ht hname]
    exact hcolumns column hcolumn

theorem ForeignKey.kept_rules_iff {tables : List Table} (htables : (tables.map Table.name).Nodup)
    {before : List ForeignKey} {k : ForeignKey} :
    (k.rules tables before).Kept ↔
      (k.table, k.name) ∉ before.map (fun k => (k.table, k.name)) ∧
        k.columns ≠ [] ∧ k.referencesColumns ≠ [] ∧
          k.columns.length = k.referencesColumns.length ∧
          HasColumns tables k.table k.columns ∧
          HasColumns tables k.referencesTable k.referencesColumns := by
  simp [rules, kept_sideRules_iff htables, and_assoc]

/-- No rule is broken exactly in the documents that are well-formed. -/
theorem Document.kept_rules_iff {d : Document} : d.rules.Kept ↔ d.WellFormed := by
  have hkept : d.rules.Kept ↔ (each d.tables Table.rules).Kept ∧
      (each d.foreignKeys (ForeignKey.rules d.tables)).Kept := by
    simp only [rules, kept_inTurn_iff, List.forall_mem_cons, List.not_mem_nil, false_implies,
      implies_true, and_true]
  rw [hkept, kept_each_keyed_iff fun _ _ => Table.kept_rules_iff]
  constructor
  · rintro ⟨⟨hnames, hsound⟩, hkeys⟩
    rw [kept_each_keyed_iff fun _ _ => ForeignKey.kept_rules_iff hnames] at hkeys
    exact ⟨hnames, fun t ht => (hsound t ht).1, fun t ht => (hsound t ht).2, hkeys.1, hkeys.2⟩
  · rintro ⟨hnames, hcolumns, hconstraints, hkeys, hsides⟩
    rw [kept_each_keyed_iff fun _ _ => ForeignKey.kept_rules_iff hnames]
    exact ⟨⟨hnames, fun t ht => ⟨hcolumns t ht, hconstraints t ht⟩⟩, hkeys, hsides⟩

end EmbedQuery
