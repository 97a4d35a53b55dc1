import Mathlib.Data.List.Sigma
import EmbedQuery.Proofs.Relationship.Lookup
import EmbedQuery.Proofs.Schema.Rearrangement

/-!
# Look-ups in another order

The order in which a catalog lists its foreign keys decides in which order the ways between two
tables are found, but not which there are (`Catalog.Rearranges.ways_perm`). A look-up asks only how
many ways are left, and for the one if there is one. So in every order it finds the same way, with
the key at its place there; and where it fails, it fails alike, naming the same keys in some order
(`Resolver.relationship_alike`).
-/

namespace EmbedQuery

/-! ### Ways with other places -/

/-- The way with the place of its key in another order. -/
def Candidate.renumber (σ : Equiv.Perm ℕ) (w : Candidate) : Candidate :=
  { w with position := σ w.position }

/-- The relationship with the place of its key in another order. -/
def Relationship.renumber (σ : Equiv.Perm ℕ) (found : Relationship) : Relationship :=
  { found with position := σ found.position }

theorem Candidate.renumber_injective (σ : Equiv.Perm ℕ) : (renumber σ).Injective := by
  intro w v h
  cases w
  cases v
  simpa [renumber] using h

/-- The same error, up to the order in which the ways that are left are named. -/
inductive RelationshipError.Alike : RelationshipError → RelationshipError → Prop
  | same (e : RelationshipError) : Alike e e
  | ambiguous (parent child : String) {names more : List String} (h : names.Perm more) :
      Alike (.ambiguous parent child names) (.ambiguous parent child more)

namespace Catalog

/-! ### Ways in another order -/

theorem nodup_heldBy (c : Catalog) (holder other : String) (direction : Direction) :
    (c.heldBy holder other direction).Nodup := by
  refine List.Nodup.filterMap ?_ (List.nodup_zipIdx_map_snd c.foreignKeys).of_map
  rintro ⟨k, i⟩ ⟨l, j⟩ w hk hl
  obtain ⟨-, ⟨⟩⟩ := Option.ite_none_right_eq_some.1 hk
  obtain ⟨-, ⟨⟩⟩ := Option.ite_none_right_eq_some.1 hl
  rfl

/-- No way is found twice. -/
theorem nodup_ways (c : Catalog) (parent child : String) : (c.ways parent child).Nodup := by
  refine (nodup_heldBy c _ _ _).append (nodup_heldBy c _ _ _) ?_
  intro w hforward hreverse
  obtain ⟨-, hdirection, -⟩ := mem_heldBy_iff.1 hforward
  obtain ⟨-, hdirection', -⟩ := mem_heldBy_iff.1 hreverse
  cases hdirection.symm.trans hdirection'

namespace Rearranges

variable {σ : Equiv.Perm ℕ} {c c' : Catalog}

/-- The ways between two tables are the same in every order, with their keys at other places. -/
theorem ways_perm (h : Rearranges σ c c') (parent child : String) :
    (c'.ways parent child).Perm ((c.ways parent child).map (Candidate.renumber σ)) := by
  have hnodup := (nodup_ways c parent child).map (Candidate.renumber_injective σ)
  refine (List.perm_ext_iff_of_nodup (nodup_ways c' parent child) hnodup).2 fun w => ?_
  rw [List.mem_map, mem_ways_iff]
  constructor
  · rintro ⟨hkey, hleads⟩
    refine ⟨{ w with position := σ.symm w.position }, mem_ways_iff.2 ⟨?_, hleads⟩, ?_⟩
    · rw [← h.foreignKeys, σ.apply_symm_apply]
      exact hkey
    · simp [Candidate.renumber]
  · rintro ⟨v, hv, rfl⟩
    obtain ⟨hkey, hleads⟩ := mem_ways_iff.1 hv
    exact ⟨(h.foreignKeys v.position).trans hkey, hleads⟩

theorem fitting_perm (h : Rearranges σ c c') (parent child : String) (hint : Option String) :
    (c'.fitting parent child hint).Perm
      ((c.fitting parent child hint).map (Candidate.renumber σ)) := by
  -- Whether a hint fits depends on the key and the direction only.
  have hfilter := (h.ways_perm parent child).filter fun w => ∀ name ∈ hint, w.Fits name
  rw [List.filter_map] at hfilter
  exact hfilter

theorem length_ways (h : Rearranges σ c c') (parent child : String) :
    (c'.ways parent child).length = (c.ways parent child).length := by
  rw [(h.ways_perm parent child).length_eq, List.length_map]

theorem cardinality_renumber (h : Rearranges σ c c') (w : Candidate) :
    c'.cardinality (w.renumber σ) = c.cardinality w := by
  unfold cardinality
  rw [h.table?_eq]
  rfl

end Rearranges

end Catalog

namespace Resolver

variable {σ : Equiv.Perm ℕ} {r r' : Resolver}

/-- In every order, a look-up finds the same way or fails alike. -/
theorem relationship_alike (h : Catalog.Rearranges σ r.catalog r'.catalog) (parent child : String)
    (hint : Option String) :
    (∃ found, r.relationship parent child hint = .ok found ∧
        r'.relationship parent child hint = .ok (found.renumber σ)) ∨
      ∃ error error', r.relationship parent child hint = .error error ∧
        r'.relationship parent child hint = .error error' ∧ error.Alike error' := by
  have hperm := h.fitting_perm parent child hint
  unfold relationship
  rw [remaining_eq_fitting, remaining_eq_fitting, candidates_eq_ways, candidates_eq_ways,
    h.length_ways]
  -- No way is left, one is, or several are.
  rcases hfitting : r.catalog.fitting parent child hint with _ | ⟨w, _ | ⟨v, ws⟩⟩
  · rw [hfitting, List.map_nil, List.perm_nil] at hperm
    rw [hperm]
    exact Or.inr ⟨_, _, rfl, rfl, .same _⟩
  · rw [hfitting, List.map_singleton, List.perm_singleton] at hperm
    rw [hperm]
    simp only [h.cardinality_renumber]
    exact Or.inl ⟨_, rfl, rfl⟩
  · rw [hfitting] at hperm
    have hnames := hperm.symm.map fun w => w.key.name
    rcases hfitting' : r'.catalog.fitting parent child hint with _ | ⟨w', _ | ⟨v', ws'⟩⟩
    · simp [hfitting'] at hperm
    · simp [hfitting'] at hperm
    · refine Or.inr ⟨_, _, rfl, rfl, .ambiguous parent child ?_⟩
      rw [hfitting', List.map_map] at hnames
      exact hnames

end Resolver

end EmbedQuery
