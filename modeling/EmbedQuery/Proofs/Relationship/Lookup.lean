import EmbedQuery.Relationship.Resolver

/-!
# Look-up through the index

The index of foreign keys is filled key by key, under both orders of a pair of tables. The invariant
is `between_foldl`: what the index gives for a pair are the keys entered so far that connect it, in
the order of entry. So the candidates between two tables are those that a scan of all foreign keys
finds (`Resolver.candidates_eq_ways`), and a look-up answers by how many of them the hint fits
(`Resolver.relationship_eq`).
-/

namespace EmbedQuery

/-! ### Ways by scanning -/

/-- The keys that `holder` holds on `other`, in the order of the catalog, as ways in a direction. -/
def Catalog.heldBy (c : Catalog) (holder other : String) (direction : Direction) :
    List Candidate :=
  c.foreignKeys.zipIdx.filterMap fun (key, position) =>
    if key.table = holder ∧ key.referencesTable = other then some ⟨position, key, direction⟩
    else none

/-- The ways from `parent` to `child`, found by going through all keys of the catalog twice: once
for the keys of `parent` on `child` and once for those of `child` on `parent`. -/
def Catalog.ways (c : Catalog) (parent child : String) : List Candidate :=
  c.heldBy parent child .forward ++ c.heldBy child parent .reverse

/-- The key goes from `parent` to `child`: the one holds it on the other, which of them being told
by the direction. -/
def ForeignKey.Leads (k : ForeignKey) (direction : Direction) (parent child : String) : Prop :=
  match direction with
  | .forward => k.table = parent ∧ k.referencesTable = child
  | .reverse => k.table = child ∧ k.referencesTable = parent

namespace Catalog

variable {c : Catalog} {w : Candidate}

theorem mem_heldBy_iff {holder other : String} {direction : Direction} :
    w ∈ c.heldBy holder other direction ↔
      c.foreignKeys[w.position]? = some w.key ∧ w.direction = direction ∧
        w.key.table = holder ∧ w.key.referencesTable = other := by
  obtain ⟨position, key, side⟩ := w
  rw [heldBy, List.mem_filterMap]
  constructor
  · rintro ⟨⟨k, i⟩, hmem, hsome⟩
    obtain ⟨hsides, ⟨⟩⟩ := Option.ite_none_right_eq_some.1 hsome
    exact ⟨List.mem_zipIdx_iff_getElem?.1 hmem, rfl, hsides⟩
  · rintro ⟨hkey, rfl, hsides⟩
    exact ⟨(key, position), List.mem_zipIdx_iff_getElem?.2 hkey, if_pos hsides⟩

/-- The ways from one table to another are the keys of the catalog that lead there. -/
theorem mem_ways_iff {parent child : String} :
    w ∈ c.ways parent child ↔
      c.foreignKeys[w.position]? = some w.key ∧ w.key.Leads w.direction parent child := by
  rw [ways, List.mem_append, mem_heldBy_iff, mem_heldBy_iff, ← and_or_left]
  refine and_congr_right fun _ => ?_
  cases h : w.direction <;> simp [ForeignKey.Leads]

end Catalog

/-- A hint fits a way when it names the key, or one of its columns: on either side if the key
connects two tables, and on the side of the parent if it connects a table with itself. -/
def Candidate.Fits (w : Candidate) (hint : String) : Prop :=
  w.key.name = hint ∨
    if w.key.table = w.key.referencesTable then
      match w.direction with
      | .forward => hint ∈ w.key.columns
      | .reverse => hint ∈ w.key.referencesColumns
    else hint ∈ w.key.columns ∨ hint ∈ w.key.referencesColumns

theorem Candidate.matchesHint_iff {w : Candidate} {hint : String} :
    w.matchesHint hint = true ↔ w.Fits hint := by
  unfold matchesHint Fits ForeignKey.isSelfReferencing ForeignKey.mentions
  cases w.direction <;> by_cases hself : w.key.table = w.key.referencesTable <;> simp [hself]

instance (w : Candidate) (hint : String) : Decidable (w.Fits hint) :=
  decidable_of_iff (w.matchesHint hint = true) Candidate.matchesHint_iff

/-- The ways from `parent` to `child` that the hint fits; all of them without a hint. -/
def Catalog.fitting (c : Catalog) (parent child : String) (hint : Option String) :
    List Candidate :=
  (c.ways parent child).filter fun w => ∀ h ∈ hint, w.Fits h

theorem Catalog.fitting_none (c : Catalog) (parent child : String) :
    c.fitting parent child none = c.ways parent child :=
  List.filter_eq_self.2 fun _ _ => decide_eq_true fun _ => nofun

/-! ### The index -/

/-- The key relates the two tables, held by either of them. -/
def ForeignKey.Connects (k : ForeignKey) (a b : String) : Prop :=
  k.table = a ∧ k.referencesTable = b ∨ k.table = b ∧ k.referencesTable = a

instance (k : ForeignKey) (a b : String) : Decidable (k.Connects a b) :=
  inferInstanceAs (Decidable (_ ∨ _))

namespace RelationshipIndex

variable (index : RelationshipIndex) (entry : Nat × ForeignKey) (a b : String)

theorem between_push (x y : String) :
    (index.push a b entry).between x y =
      if a = x ∧ b = y then index.between x y ++ [entry] else index.between x y := by
  simp only [between, push, Std.HashMap.getD_insert, beq_iff_eq]
  by_cases hx : a = x
  · subst hx
    simp only [if_true, true_and, Std.HashMap.getD_insert, beq_iff_eq]
    by_cases hy : b = y
    · subst hy
      rw [if_pos rfl]
    · rw [if_neg hy, if_neg hy]
  · rw [if_neg hx, if_neg fun h => hx h.1]

/-- A key is entered once for each pair it connects. -/
theorem between_add :
    (index.add entry).between a b =
      index.between a b ++ if entry.2.Connects a b then [entry] else [] := by
  obtain ⟨position, key⟩ := entry
  unfold add ForeignKey.Connects ForeignKey.isSelfReferencing
  -- The two orders of a pair are one when a table refers to itself.
  by_cases hself : key.table = key.referencesTable
  · simp only [hself, beq_self_eq_true, if_true, between_push]
    grind
  · simp only [beq_iff_eq, hself, if_false, between_push]
    grind

theorem between_foldl (entries : List (Nat × ForeignKey)) :
    (entries.foldl add index).between a b =
      index.between a b ++ entries.filter fun entry => entry.2.Connects a b := by
  induction entries generalizing index with
  | nil => simp
  | cons entry entries ih =>
    rw [List.foldl_cons, ih, between_add, List.append_assoc, List.filter_cons]
    by_cases h : entry.2.Connects a b <;> simp [h]

theorem between_ofKeys (keys : List ForeignKey) :
    (ofKeys keys).between a b =
      (keys.zipIdx.map Prod.swap).filter fun entry => entry.2.Connects a b := by
  have hempty : between {} a b = [] := by
    simp [between]
  rw [ofKeys, between_foldl, hempty, List.nil_append]

/-- Among the keys that connect two tables are all that the one holds on the other. -/
theorem heldBy_filter (entries : List (Nat × ForeignKey)) {holder other : String}
    (hpair : holder = a ∧ other = b ∨ holder = b ∧ other = a) (direction : Direction) :
    heldBy (entries.filter fun entry => entry.2.Connects a b) holder other direction =
      heldBy entries holder other direction := by
  unfold heldBy
  rw [List.filter_filter]
  congr 1
  refine List.filter_congr fun entry _ => ?_
  simp only [ForeignKey.Connects]
  grind

theorem heldBy_zipIdx (c : Catalog) (holder other : String) (direction : Direction) :
    heldBy (c.foreignKeys.zipIdx.map Prod.swap) holder other direction =
      c.heldBy holder other direction := by
  unfold heldBy Catalog.heldBy
  generalize c.foreignKeys.zipIdx = entries
  induction entries with
  | nil => rfl
  | cons entry entries ih =>
    obtain ⟨key, position⟩ := entry
    rw [List.filterMap_cons, ← ih]
    by_cases h : key.table = holder ∧ key.referencesTable = other <;> simp [h]

end RelationshipIndex

/-! ### The look-up -/

namespace Resolver

variable (r : Resolver) (parent child : String) (hint : Option String)

/-- The candidates of the index are those that a scan of all keys finds. -/
theorem candidates_eq_ways : r.candidates parent child = r.catalog.ways parent child := by
  rw [candidates, r.index_eq, RelationshipIndex.candidates, RelationshipIndex.between_ofKeys,
    RelationshipIndex.heldBy_filter _ _ _ (Or.inl ⟨rfl, rfl⟩),
    RelationshipIndex.heldBy_filter _ _ _ (Or.inr ⟨rfl, rfl⟩),
    RelationshipIndex.heldBy_zipIdx, RelationshipIndex.heldBy_zipIdx, Catalog.ways]

theorem remaining_eq_fitting :
    r.remaining parent child hint = r.catalog.fitting parent child hint := by
  cases hint with
  | none => rw [remaining, candidates_eq_ways, Catalog.fitting_none]
  | some hint =>
    rw [remaining, candidates_eq_ways, Catalog.fitting]
    refine List.filter_congr fun w _ => Bool.eq_iff_iff.2 ?_
    rw [Candidate.matchesHint_iff]
    simp

/-- What a look-up says about the way it chooses. -/
def chosen (w : Candidate) : Relationship where
  position := w.position
  constraint := w.key.name
  direction := w.direction
  cardinality := r.catalog.cardinality w
  candidates := (r.catalog.ways parent child).length

theorem relationship_eq_ok_iff (found : Relationship) :
    r.relationship parent child hint = .ok found ↔
      ∃ w, r.catalog.fitting parent child hint = [w] ∧ found = r.chosen parent child w := by
  unfold relationship
  rw [remaining_eq_fitting, candidates_eq_ways]
  -- No way is left, one is, or several are.
  rcases r.catalog.fitting parent child hint with _ | ⟨w, _ | ⟨w', ws⟩⟩
  · simp
  · simp [chosen, eq_comm]
  · simp

/-- Where no way is left, the error says whether a hint was given. -/
theorem relationship_of_nil (h : r.catalog.fitting parent child hint = []) :
    r.relationship parent child hint =
      .error (hint.elim (.unknown parent child) (.invalidHint parent child)) := by
  unfold relationship
  rw [remaining_eq_fitting, h]
  cases hint <;> rfl

/-- Where several ways are left, the error names their keys. -/
theorem relationship_of_several (h : 1 < (r.catalog.fitting parent child hint).length) :
    r.relationship parent child hint =
      .error (.ambiguous parent child
        ((r.catalog.fitting parent child hint).map (·.key.name))) := by
  unfold relationship
  rw [remaining_eq_fitting]
  rcases hways : r.catalog.fitting parent child hint with _ | ⟨w, _ | ⟨w', ws⟩⟩
  · simp [hways] at h
  · simp [hways] at h
  · rfl

/-- A look-up answers by the ways that a scan of all keys finds and the hint fits: if there is one,
it is chosen; if there is none, there is no relationship or the hint is wrong; if there are several,
they are named. -/
theorem relationship_eq :
    r.candidates parent child = r.catalog.ways parent child ∧
      (∀ found, r.relationship parent child hint = .ok found ↔
        ∃ w, r.catalog.fitting parent child hint = [w] ∧
          found = ⟨w.position, w.key.name, w.direction, r.catalog.cardinality w,
            (r.catalog.ways parent child).length⟩) ∧
      (r.catalog.fitting parent child hint = [] →
        r.relationship parent child hint =
          .error (hint.elim (.unknown parent child) (.invalidHint parent child))) ∧
      (1 < (r.catalog.fitting parent child hint).length →
        r.relationship parent child hint =
          .error (.ambiguous parent child
            ((r.catalog.fitting parent child hint).map (·.key.name)))) :=
  ⟨r.candidates_eq_ways parent child, r.relationship_eq_ok_iff parent child hint,
    r.relationship_of_nil parent child hint, r.relationship_of_several parent child hint⟩

end Resolver

end EmbedQuery
