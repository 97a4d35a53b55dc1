import EmbedQuery.Proofs.Relationship.Lookup

/-!
# Look-ups from the other side

A foreign key that connects two tables is a way from either of them to the other, in opposite
directions. So the ways between two tables are the same from both sides, up to their direction and
the order they are found in (`Catalog.ways_opposite`), and between two different tables a hint fits
a way from the one side if it does from the other. A look-up from the other side therefore finds the
same key or fails alike: `Resolver.relationship_opposite`.
-/

namespace EmbedQuery

/-! ### The other side of a way -/

/-- The direction in which the other side goes. -/
def Direction.opposite : Direction → Direction
  | forward => reverse
  | reverse => forward

/-- The way through the same key from the other side. -/
def Candidate.opposite (w : Candidate) : Candidate := { w with direction := w.direction.opposite }

/-- What two look-ups from opposite sides say of the key they pick. To the table that holds the key,
one row at most belongs on the other side. -/
structure Relationship.Opposite (found found' : Relationship) : Prop where
  position : found'.position = found.position
  constraint : found'.constraint = found.constraint
  candidates : found'.candidates = found.candidates
  direction : found'.direction = found.direction.opposite
  toOne : found.cardinality = .toOne ∨ found'.cardinality = .toOne

/-- The errors of two look-ups from opposite sides: they are of one kind, and where several keys are
left, the same are named. -/
inductive RelationshipError.Opposite (a b : String) : RelationshipError → RelationshipError → Prop
  | unknown : Opposite a b (.unknown a b) (.unknown b a)
  | invalidHint (hint : String) : Opposite a b (.invalidHint a b hint) (.invalidHint b a hint)
  | ambiguous {names more : List String} (h : names.Perm more) :
      Opposite a b (.ambiguous a b names) (.ambiguous b a more)

namespace Catalog

variable {c : Catalog} {a b : String}

theorem heldBy_opposite (c : Catalog) (holder other : String) (direction : Direction) :
    (c.heldBy holder other direction).map Candidate.opposite =
      c.heldBy holder other direction.opposite := by
  unfold heldBy
  rw [List.map_filterMap]
  congr 1
  funext ⟨key, position⟩
  by_cases h : key.table = holder ∧ key.referencesTable = other
  · simp [h, Candidate.opposite]
  · simp [h]

/-- From the other side, the ways are the same in the opposite direction: those that were found last
are found first. -/
theorem ways_opposite (c : Catalog) (a b : String) :
    (c.ways b a).Perm ((c.ways a b).map Candidate.opposite) := by
  unfold ways
  rw [List.map_append, heldBy_opposite, heldBy_opposite]
  exact List.perm_append_comm

theorem length_ways_opposite (c : Catalog) (a b : String) :
    (c.ways b a).length = (c.ways a b).length := by
  rw [(c.ways_opposite a b).length_eq, List.length_map]

/-- Between two different tables there are no keys of a table on itself. -/
theorem table_ne_of_mem_ways (hne : a ≠ b) {w : Candidate} (hw : w ∈ c.ways a b) :
    w.key.table ≠ w.key.referencesTable := by
  obtain ⟨-, hleads⟩ := mem_ways_iff.1 hw
  intro hself
  apply hne
  unfold ForeignKey.Leads at hleads
  split at hleads
  · obtain ⟨rfl, rfl⟩ := hleads
    exact hself
  · obtain ⟨rfl, rfl⟩ := hleads
    exact hself.symm

end Catalog

/-- On a key that connects two tables, a hint does not tell the direction. -/
theorem Candidate.fits_opposite {w : Candidate} (hself : w.key.table ≠ w.key.referencesTable)
    (hint : String) : w.opposite.Fits hint ↔ w.Fits hint := by
  simp [Fits, opposite, hself]

/-- Between two different tables, a hint leaves the same ways from both sides. -/
theorem Catalog.fitting_opposite {c : Catalog} {a b : String} (hne : a ≠ b)
    (hint : Option String) :
    (c.fitting b a hint).Perm ((c.fitting a b hint).map Candidate.opposite) := by
  have hfilter := (c.ways_opposite a b).filter fun w => ∀ name ∈ hint, w.Fits name
  rw [List.filter_map] at hfilter
  have hsame : (c.ways a b).filter
        ((fun w => decide (∀ name ∈ hint, w.Fits name)) ∘ Candidate.opposite) =
      c.fitting a b hint := by
    refine List.filter_congr fun w hw => ?_
    have hself := table_ne_of_mem_ways hne hw
    simp [Candidate.fits_opposite hself]
  rw [hsame] at hfilter
  exact hfilter

/-! ### The look-up -/

namespace Resolver

/-- One of the two sides of a key goes forward. -/
theorem chosen_opposite (r : Resolver) (a b : String) (w : Candidate) :
    (r.chosen a b w).Opposite (r.chosen b a w.opposite) where
  position := rfl
  constraint := rfl
  candidates := r.catalog.length_ways_opposite a b
  direction := rfl
  toOne := by
    show r.catalog.cardinality w = .toOne ∨ r.catalog.cardinality w.opposite = .toOne
    cases h : w.direction with
    | forward => exact Or.inl (by rw [Catalog.cardinality, h])
    | reverse => exact Or.inr (by simp [Catalog.cardinality, Candidate.opposite, h,
        Direction.opposite])

/-- Between two different tables, a look-up finds a relationship exactly when the look-up from the
other side does. Then both pick the same key, in opposite directions; and otherwise both fail
alike. -/
theorem relationship_opposite (r : Resolver) {a b : String} (hne : a ≠ b)
    (hint : Option String) :
    (∃ found found', r.relationship a b hint = .ok found ∧ r.relationship b a hint = .ok found' ∧
        found.Opposite found') ∨
      ∃ error error', r.relationship a b hint = .error error ∧
        r.relationship b a hint = .error error' ∧ error.Opposite a b error' := by
  have hperm := Catalog.fitting_opposite (c := r.catalog) hne hint
  rcases hfitting : r.catalog.fitting a b hint with _ | ⟨w, _ | ⟨v, ws⟩⟩
  · -- No way is left, so none is left from the other side.
    rw [hfitting, List.map_nil, List.perm_nil] at hperm
    refine Or.inr
      ⟨_, _, r.relationship_of_nil _ _ _ hfitting, r.relationship_of_nil _ _ _ hperm, ?_⟩
    cases hint with
    | none => exact .unknown
    | some hint => exact .invalidHint hint
  · -- One way is left, and its opposite.
    rw [hfitting, List.map_singleton, List.perm_singleton] at hperm
    have hfound := (r.relationship_eq_ok_iff a b hint _).2 ⟨w, hfitting, rfl⟩
    have hfound' := (r.relationship_eq_ok_iff b a hint _).2 ⟨w.opposite, hperm, rfl⟩
    exact Or.inl ⟨_, _, hfound, hfound', r.chosen_opposite a b w⟩
  · -- Several ways are left, and as many from the other side.
    have hseveral : 1 < (r.catalog.fitting a b hint).length := by simp [hfitting]
    have hseveral' : 1 < (r.catalog.fitting b a hint).length := by
      rw [hperm.length_eq, List.length_map]
      exact hseveral
    have hnames := hperm.symm.map fun w => w.key.name
    rw [List.map_map] at hnames
    exact Or.inr ⟨_, _, r.relationship_of_several _ _ _ hseveral,
      r.relationship_of_several _ _ _ hseveral', .ambiguous hnames⟩

end Resolver

/-- Messages between people, with a key for each end and one from people to the last message they
wrote. -/
def Catalog.chat : Catalog where
  tables := [
    { name := "people", columns := [{ name := "id" }, { name := "last_message" }] },
    { name := "messages"
      columns := [{ name := "id" }, { name := "sender" }, { name := "recipient" }] }]
  foreignKeys := [
    ⟨"sender_fkey", "messages", ["sender"], "people", ["id"]⟩,
    ⟨"last_message_fkey", "people", ["last_message"], "messages", ["id"]⟩,
    ⟨"recipient_fkey", "messages", ["recipient"], "people", ["id"]⟩]
  sound := by decide
  normal := by decide

/-- Every key between people and messages has a column `id`, so this hint leaves all three. -/
theorem Resolver.relationship_opposite_chat :
    "people" ≠ "messages" ∧
      ((∃ found found',
          Resolver.relationship { catalog := .chat } "people" "messages" (some "id") = .ok found ∧
          Resolver.relationship { catalog := .chat } "messages" "people" (some "id") =
            .ok found' ∧ found.Opposite found') ∨
        ∃ error error',
          Resolver.relationship { catalog := .chat } "people" "messages" (some "id") =
            .error error ∧
          Resolver.relationship { catalog := .chat } "messages" "people" (some "id") =
            .error error' ∧ error.Opposite "people" "messages" error') :=
  ⟨by decide, Resolver.relationship_opposite { catalog := .chat } (by decide) (some "id")⟩

end EmbedQuery
