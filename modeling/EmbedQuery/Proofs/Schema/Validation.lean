import EmbedQuery.Proofs.Schema.Rules

/-!
# Checking documents

A document gives a catalog exactly if it is well-formed, and otherwise the violation of the rule
that is broken first (`Catalog.ofDocument_iff`).

Violations are listed loop by loop. What a list of them has to do with rules is said by
`Rules.CheckedBy`: it is empty if the rules are kept, and it starts with the violation that comes
first. Each loop keeps this, and so does putting one check after another, where the second check
may rely on the first to have found nothing. So foreign keys are checked in the knowledge that
tables have different names.
-/

namespace EmbedQuery

namespace Rules

variable {α : Type} {x : α} {xs : List α} {v : Violation}

/-! ### What is broken first in a list -/

theorem First.each_head {rules : List α → α → Rules} (h : (rules [] x).First v) :
    (each (x :: xs) rules).First v := by
  obtain ⟨place, hbroken, hfirst⟩ := h
  refine ⟨0 :: place, ⟨x, rfl, hbroken⟩, ?_⟩
  intro place' v' hbroken'
  -- Another rule is broken on the first element too, or on a later one.
  rcases place' with _ | ⟨_ | i, place'⟩
  · cases hbroken'
  · obtain ⟨_, ⟨⟩, hbroken'⟩ := hbroken'
    rcases hfirst place' v' hbroken' with hlt | ⟨rfl, rfl⟩
    · exact .inl (List.cons_lt_cons_iff.2 (.inr ⟨rfl, hlt⟩))
    · exact .inr ⟨rfl, rfl⟩
  · exact .inl (List.cons_lt_cons_iff.2 (.inl i.succ_pos))

theorem First.each_tail {rules : List α → α → Rules} (hkept : (rules [] x).Kept)
    (h : (each xs fun before => rules (x :: before)).First v) :
    (each (x :: xs) rules).First v := by
  obtain ⟨_ | ⟨i, place⟩, hbroken, hfirst⟩ := h
  · cases hbroken
  · refine ⟨(i + 1) :: place, hbroken, ?_⟩
    intro place' v' hbroken'
    rcases place' with _ | ⟨_ | j, place'⟩
    · cases hbroken'
    · obtain ⟨_, ⟨⟩, hbroken'⟩ := hbroken'
      exact absurd hbroken' (hkept place' v')
    · rcases hfirst (j :: place') v' hbroken' with hlt | ⟨heq, rfl⟩
      · refine .inl (List.cons_lt_cons_iff.2 ?_)
        rcases List.cons_lt_cons_iff.1 hlt with hpart | ⟨rfl, hpart⟩
        · exact .inl (Nat.succ_lt_succ hpart)
        · exact .inr ⟨rfl, hpart⟩
      · cases heq
        exact .inr ⟨rfl, rfl⟩

/-! ### Lists of violations -/

/-- A list of violations tells about rules: it is empty only if all of them are kept, and otherwise
it starts with the violation that comes first. -/
structure CheckedBy (rules : Rules) (vs : List Violation) : Prop where
  kept : vs = [] → rules.Kept
  first : ∀ v ∈ vs.head?, rules.First v

namespace CheckedBy

theorem kept_iff {rules : Rules} {vs : List Violation} (h : rules.CheckedBy vs) :
    rules.Kept ↔ vs = [] := by
  refine ⟨fun hkept => ?_, h.kept⟩
  cases vs with
  | nil => rfl
  | cons v vs =>
    obtain ⟨place, hbroken, -⟩ := h.first v rfl
    exact absurd hbroken (hkept place v)

theorem first_iff {rules : Rules} {vs : List Violation} (h : rules.CheckedBy vs) :
    rules.First v ↔ v ∈ vs.head? := by
  refine ⟨fun hfirst => ?_, h.first v⟩
  cases vs with
  | nil =>
    obtain ⟨place, hbroken, -⟩ := hfirst
    exact absurd hbroken (h.kept rfl place v)
  | cons w vs =>
    rw [hfirst.unique (h.first w rfl)]
    rfl

theorem rule_of {broken : Prop} {violation : Violation} (h : broken) :
    (rule broken violation).CheckedBy [violation] := by
  refine ⟨nofun, ?_⟩
  rintro v ⟨⟩
  refine ⟨[], ⟨rfl, h, rfl⟩, ?_⟩
  rintro place v' ⟨rfl, -, rfl⟩
  exact .inr ⟨rfl, rfl⟩

theorem rule_of_not {broken : Prop} {violation : Violation} (h : ¬broken) :
    (rule broken violation).CheckedBy [] :=
  ⟨fun _ => kept_rule_iff.2 h, nofun⟩

/-- A rule is checked by any test that tells whether it is broken. -/
theorem rule_of_iff {test broken : Prop} [Decidable test] {violation : Violation}
    (h : test ↔ broken) : (rule broken violation).CheckedBy (if test then [violation] else []) := by
  split
  · next htest => exact rule_of (h.1 htest)
  · next htest => exact rule_of_not fun hbroken => htest (h.2 hbroken)

theorem each_nil {rules : List α → α → Rules} : (each [] rules).CheckedBy [] where
  kept _ := kept_each_iff.2 nofun
  first := nofun

/-- A list is checked by checking its elements one by one. After a violation it does not matter what
the others give. -/
theorem each_cons {rules : List α → α → Rules} {vs ws : List Violation}
    (hhead : (rules [] x).CheckedBy vs)
    (htail : vs = [] → (each xs fun before => rules (x :: before)).CheckedBy ws) :
    (each (x :: xs) rules).CheckedBy (vs ++ ws) := by
  cases vs with
  | nil =>
    have hkept : (rules [] x).Kept := hhead.kept rfl
    have hrest := htail rfl
    refine ⟨fun hnil => ?_, fun v hv => (hrest.first v hv).each_tail hkept⟩
    have hkepts := kept_each_iff.1 (hrest.kept hnil)
    rw [kept_each_iff]
    rintro (_ | i) y hy
    · cases hy
      exact hkept
    · exact hkepts i y hy
  | cons w vs =>
    refine ⟨nofun, fun v hv => ?_⟩
    exact (hhead.first v hv).each_head

/-- Elements are checked one by one, each by itself. -/
theorem each_flatMap {rules : α → Rules} {check : α → List Violation} {xs : List α}
    (h : ∀ x ∈ xs, (rules x).CheckedBy (check x)) :
    (each xs fun _ => rules).CheckedBy (xs.flatMap check) := by
  induction xs with
  | nil => exact each_nil
  | cons x xs ih =>
    obtain ⟨hx, hxs⟩ := List.forall_mem_cons.1 h
    exact each_cons hx fun _ => ih hxs

/-- Elements are checked one by one, with the keys of those before. -/
theorem each_keyed {β : Type} (key : α → β) {rules : List α → α → Rules}
    (check : List β → List α → List Violation) (own : List β → α → List Violation)
    (hnil : ∀ earlier, check earlier [] = [])
    (hcons : ∀ earlier x xs, check earlier (x :: xs) = own earlier x ++ check (key x :: earlier) xs)
    (hown : ∀ earlier before x, (∀ k, k ∈ earlier ↔ k ∈ before.map key) →
      (rules before x).CheckedBy (own earlier x)) (xs : List α) :
    (each xs rules).CheckedBy (check [] xs) := by
  -- On the way, `before` is what has been passed, and `earlier` has its keys in some order.
  have hafter : ∀ earlier before, (∀ k, k ∈ earlier ↔ k ∈ before.map key) →
      (each xs fun more => rules (before ++ more)).CheckedBy (check earlier xs) := by
    induction xs with
    | nil =>
      intro earlier before _
      rw [hnil]
      exact each_nil
    | cons x xs ih =>
      intro earlier before hkeys
      rw [hcons]
      refine each_cons (hown earlier (before ++ []) x (by simpa using hkeys)) fun _ => ?_
      have hrest := ih (key x :: earlier) (before ++ [x]) (by grind)
      simpa only [List.append_assoc, List.singleton_append] using hrest
  exact hafter [] [] (by simp)

theorem inTurn_nil : (inTurn []).CheckedBy [] := each_nil

/-- Rules are checked in turn. -/
theorem inTurn_cons {rules : Rules} {parts : List Rules} {vs ws : List Violation}
    (hhead : rules.CheckedBy vs) (htail : vs = [] → (inTurn parts).CheckedBy ws) :
    (inTurn (rules :: parts)).CheckedBy (vs ++ ws) :=
  each_cons hhead htail

theorem inTurn_single {rules : Rules} {vs : List Violation} (h : rules.CheckedBy vs) :
    (inTurn [rules]).CheckedBy vs := by
  rw [← List.append_nil vs]
  exact inTurn_cons h fun _ => inTurn_nil

end CheckedBy

end Rules

open Rules

/-! ### Tables -/

theorem Table.missing_eq_flatMap (t : Table) (constraint : String) (columns : List String) :
    t.missing constraint columns = columns.flatMap fun column =>
      if column ∉ t.columnNames then [.unknownColumn constraint t.name column] else [] := by
  unfold missing
  induction columns with
  | nil => rfl
  | cons column columns ih =>
    rw [List.flatMap_cons, ← ih, List.filter_cons]
    by_cases h : column ∈ t.columnNames <;> simp [h]

theorem UniqueConstraint.rules_checkedBy (t : Table) (u : UniqueConstraint) :
    (u.rules t).CheckedBy (u.violations t) := by
  rw [violations, Table.missing_eq_flatMap]
  refine .inTurn_cons (.rule_of_iff Iff.rfl) fun _ => ?_
  exact .inTurn_single (.each_flatMap fun _ _ => .rule_of_iff Iff.rfl)

theorem Table.columns_checkedBy (t : Table) :
    (each t.columnNames fun before column =>
      rule (column ∈ before) (.duplicateColumn t.name column)).CheckedBy
      ((repeated [] t.columnNames).map (.duplicateColumn t.name ·)) := by
  refine .each_keyed id
    (fun earlier names => (repeated earlier names).map (.duplicateColumn t.name ·))
    (fun earlier name => if name ∈ earlier then [.duplicateColumn t.name name] else []) ?_ ?_ ?_ _
  · intro earlier
    rfl
  · intro earlier name names
    rw [repeated, List.map_append]
    by_cases h : name ∈ earlier <;> simp [h]
  · intro earlier before name hnames
    rw [List.map_id] at hnames
    exact .rule_of_iff (hnames name)

/-- A table is checked with the names of the tables before it. -/
theorem Table.rules_checkedBy {earlier : List String} {before : List Table} (t : Table)
    (hnames : ∀ name, name ∈ earlier ↔ name ∈ before.map Table.name) :
    (t.rules before).CheckedBy
      ((if t.name ∈ earlier then [.duplicateTable t.name] else []) ++ t.violations) := by
  refine .inTurn_cons (.rule_of_iff (hnames t.name)) fun _ => ?_
  refine .inTurn_cons t.columns_checkedBy fun _ => ?_
  exact .inTurn_single (.each_flatMap fun u _ => u.rules_checkedBy t)

theorem tables_checkedBy (tables : List Table) :
    (each tables Table.rules).CheckedBy (tableViolations [] tables) :=
  .each_keyed Table.name tableViolations _ (fun _ => rfl) (fun _ _ _ => rfl)
    (fun _ _ t hnames => t.rules_checkedBy hnames) tables

/-! ### Foreign keys -/

/-- Of rows with different names, the row that a name finds is the one that has it. -/
theorem find?_name_eq_some_iff {α : Type} {name : α → String} {rows : List α}
    (hrows : (rows.map name).Nodup) {key : String} {row : α} :
    rows.find? (name · == key) = some row ↔ row ∈ rows ∧ name row = key := by
  constructor
  · intro h
    exact ⟨List.mem_of_find?_eq_some h, by simpa using List.find?_some h⟩
  · rintro ⟨hrow, rfl⟩
    cases h : rows.find? (name · == name row) with
    | none => exact absurd (beq_self_eq_true _) (List.find?_eq_none.1 h row hrow)
    | some found =>
      have hname : name found = name row := by simpa using List.find?_some h
      rw [List.inj_on_of_nodup_map hrows (List.mem_of_find?_eq_some h) hrow hname]

/-- Where names of tables are different, the first table of a name is the one that is meant. -/
theorem sideRules_checkedBy {tables : List Table} (htables : (tables.map Table.name).Nodup)
    (constraint table : String) (columns : List String) :
    (sideRules tables constraint table columns).CheckedBy
      (sideViolations tables constraint table columns) := by
  unfold sideViolations
  cases hfind : findTable tables table with
  | none =>
    have hunknown : table ∉ tables.map Table.name := by
      simpa [findTable] using hfind
    exact CheckedBy.inTurn_cons (.rule_of hunknown) nofun
  | some t =>
    obtain ⟨ht, rfl⟩ := (find?_name_eq_some_iff htables).1 hfind
    have hknown : t.name ∈ tables.map Table.name := List.mem_map_of_mem ht
    have hmissing (column : String) : column ∉ t.columnNames ↔
        ∃ t' ∈ tables, t'.name = t.name ∧ column ∉ t'.columnNames := by
      constructor
      · intro h
        exact ⟨t, ht, rfl, h⟩
      · rintro ⟨t', ht', hname, h⟩
        rwa [List.inj_on_of_nodup_map htables ht' ht hname] at h
    dsimp only
    rw [Table.missing_eq_flatMap, ← List.nil_append (List.flatMap _ _)]
    refine .inTurn_cons (.rule_of_not (not_not.2 hknown)) fun _ => ?_
    exact .inTurn_single (.each_flatMap fun column _ => .rule_of_iff (hmissing column))

/-- A foreign key is checked with the names of the keys before it. -/
theorem ForeignKey.rules_checkedBy {tables : List Table} (htables : (tables.map Table.name).Nodup)
    {earlier : List (String × String)} {before : List ForeignKey} (k : ForeignKey)
    (hkeys : ∀ key, key ∈ earlier ↔ key ∈ before.map fun k => (k.table, k.name)) :
    (k.rules tables before).CheckedBy
      ((if (k.table, k.name) ∈ earlier then [.duplicateConstraint k.table k.name] else []) ++
        k.violations tables) := by
  have hmem : (k.table, k.name) ∈ earlier ↔
      ∃ other ∈ before, other.table = k.table ∧ other.name = k.name := by
    simpa using hkeys (k.table, k.name)
  simp only [violations, List.append_assoc]
  refine .inTurn_cons (.rule_of_iff hmem) fun _ => ?_
  refine .inTurn_cons (.rule_of_iff Iff.rfl) fun _ => ?_
  refine .inTurn_cons (.rule_of_iff Iff.rfl) fun _ => ?_
  refine .inTurn_cons (sideRules_checkedBy htables _ _ _) fun _ => ?_
  exact .inTurn_single (sideRules_checkedBy htables _ _ _)

theorem keys_checkedBy {tables : List Table} (htables : (tables.map Table.name).Nodup)
    (keys : List ForeignKey) :
    (each keys (ForeignKey.rules tables)).CheckedBy (keyViolations tables [] keys) :=
  .each_keyed (fun k => (k.table, k.name)) (keyViolations tables) _ (fun _ => rfl)
    (fun _ _ _ => rfl) (fun _ _ k hkeys => k.rules_checkedBy htables hkeys) keys

/-- The violations of a document are found in the order of its rules. -/
theorem Document.rules_checkedBy (d : Document) :
    d.rules.CheckedBy (violations d.tables d.foreignKeys) := by
  have htables := tables_checkedBy d.tables
  refine .inTurn_cons htables fun hnil => ?_
  have hnames : (d.tables.map Table.name).Nodup :=
    ((kept_each_keyed_iff fun _ _ => Table.kept_rules_iff).1 (htables.kept hnil)).1
  exact .inTurn_single (keys_checkedBy hnames d.foreignKeys)

/-! ### Normal tables -/

theorem Column.name_normalize (c : Column) : c.normalize.name = c.name := by
  unfold normalize
  split <;> rfl

theorem Table.columnNames_normalize (t : Table) : t.normalize.columnNames = t.columnNames := by
  simp [columnNames, normalize, Column.name_normalize]

theorem Table.missing_normalize (t : Table) (constraint : String) (columns : List String) :
    t.normalize.missing constraint columns = t.missing constraint columns := by
  simp only [missing, columnNames_normalize]
  rfl

theorem Table.violations_normalize (t : Table) : t.normalize.violations = t.violations := by
  simp only [violations, UniqueConstraint.violations, columnNames_normalize, missing_normalize]
  rfl

theorem tableViolations_map_normalize (earlier : List String) (tables : List Table) :
    tableViolations earlier (tables.map Table.normalize) = tableViolations earlier tables := by
  induction tables generalizing earlier with
  | nil => rfl
  | cons t ts ih =>
    rw [List.map_cons, tableViolations, tableViolations, ih, Table.violations_normalize]
    rfl

theorem findTable_map_normalize (tables : List Table) (name : String) :
    findTable (tables.map Table.normalize) name = (findTable tables name).map Table.normalize := by
  rw [findTable, List.find?_map]
  rfl

theorem sideViolations_map_normalize (tables : List Table) (constraint table : String)
    (columns : List String) :
    sideViolations (tables.map Table.normalize) constraint table columns =
      sideViolations tables constraint table columns := by
  rw [sideViolations, findTable_map_normalize, sideViolations]
  cases findTable tables table with
  | none => rfl
  | some t => exact t.missing_normalize constraint columns

theorem keyViolations_map_normalize (tables : List Table) (earlier : List (String × String))
    (keys : List ForeignKey) :
    keyViolations (tables.map Table.normalize) earlier keys =
      keyViolations tables earlier keys := by
  induction keys generalizing earlier with
  | nil => rfl
  | cons k ks ih =>
    simp only [keyViolations, ForeignKey.violations, sideViolations_map_normalize, ih]

/-- What the primary key does to nullability breaks no rule and mends none. -/
theorem violations_map_normalize (tables : List Table) (keys : List ForeignKey) :
    violations (tables.map Table.normalize) keys = violations tables keys := by
  rw [violations, tableViolations_map_normalize, keyViolations_map_normalize, violations]

/-! ### Catalogs -/

namespace Catalog

/-- The document of a catalog is well-formed. -/
theorem wellFormed (c : Catalog) : c.toDocument.WellFormed :=
  Document.kept_rules_iff.1 (c.toDocument.rules_checkedBy.kept c.sound)

variable {d : Document}

theorem ofDocument_eq_error_iff {v : Violation} :
    ofDocument d = .error v ↔ v ∈ (violations d.tables d.foreignKeys).head? := by
  rw [← violations_map_normalize]
  unfold ofDocument
  split
  · next h => simp [h]
  · next violation rest h => simp [h]

theorem exists_ofDocument_iff :
    (∃ c, ofDocument d = .ok c) ↔ violations d.tables d.foreignKeys = [] := by
  rw [← violations_map_normalize]
  unfold ofDocument
  split
  · next h => simp [h]
  · next violation rest h => simp [h]

theorem tables_of_ofDocument {c : Catalog} (h : ofDocument d = .ok c) :
    c.tables = d.tables.map Table.normalize := by
  unfold ofDocument at h
  split at h
  · cases h
    rfl
  · cases h

theorem foreignKeys_of_ofDocument {c : Catalog} (h : ofDocument d = .ok c) :
    c.foreignKeys = d.foreignKeys := by
  unfold ofDocument at h
  split at h
  · cases h
    rfl
  · cases h

theorem exists_ofDocument_iff_wellFormed : (∃ c, ofDocument d = .ok c) ↔ d.WellFormed := by
  rw [exists_ofDocument_iff, ← d.rules_checkedBy.kept_iff, Document.kept_rules_iff]

/-- A document gives a catalog exactly if it is well-formed. In the catalog, the tables are found by
their names. Otherwise the answer is the violation of the rule that is broken first. -/
theorem ofDocument_iff (d : Document) :
    ((∃ c, ofDocument d = .ok c) ↔ d.WellFormed) ∧
      (∀ c, ofDocument d = .ok c → ∀ name t, c.table? name = some t ↔
        ∃ u ∈ d.tables, u.name = name ∧ t = u.normalize) ∧
      ∀ v, ofDocument d = .error v ↔ d.rules.First v := by
  refine ⟨exists_ofDocument_iff_wellFormed, ?_, ?_⟩
  · intro c hc name t
    have hnames := (exists_ofDocument_iff_wellFormed.1 ⟨c, hc⟩).tables
    rw [table?, tables_of_ofDocument hc, findTable_map_normalize, Option.map_eq_some_iff]
    simp only [findTable, find?_name_eq_some_iff hnames]
    grind
  · intro v
    rw [ofDocument_eq_error_iff, d.rules_checkedBy.first_iff]

end Catalog

end EmbedQuery
