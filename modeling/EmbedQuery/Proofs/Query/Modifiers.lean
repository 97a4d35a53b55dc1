import EmbedQuery.Proofs.Query.Grammar
import EmbedQuery.Query.Modifiers

/-!
# Agreement of modifiers

Modifiers are folded from left to right, and the first contradiction is kept. The main statement is
`Modifiers.ofList_eq_iff`: no contradiction is found exactly when the names agree on a join and a
hint, and then these are what the fold gives. Order and repetition play no part in it.
-/

namespace EmbedQuery

namespace JoinModifier

theorem ofName?_eq_none_iff {name : String} :
    ofName? name = none ↔ name ≠ "inner" ∧ name ≠ "left" := by
  unfold ofName?
  grind

theorem ofName?_eq_some_iff {name : String} {join : JoinModifier} :
    ofName? name = some join ↔
      name = "inner" ∧ join = .inner ∨ name = "left" ∧ join = .left := by
  unfold ofName?
  grind

end JoinModifier

namespace ModifiersMean

variable {names more : List String} {join join' : JoinModifier} {hint hint' : Option String}

theorem nil : ModifiersMean [] .default none := ⟨by simp, by simp, by simp⟩

/-- Names agree on one join and one hint at most. -/
theorem unique (h : ModifiersMean names join hint) (h' : ModifiersMean names join' hint') :
    join = join' ∧ hint = hint' := by
  constructor
  · have hinner := h.inner_iff.symm.trans h'.inner_iff
    have hleft := h.left_iff.symm.trans h'.left_iff
    cases join <;> cases join' <;> simp_all
  · exact Option.ext fun name => (h.hint_iff name).symm.trans (h'.hint_iff name)

/-- Names that agree do not contain both joins. -/
theorem not_both (h : ModifiersMean names join hint) : ¬("inner" ∈ names ∧ "left" ∈ names) := by
  rw [h.inner_iff, h.left_iff]
  rintro ⟨rfl, h⟩
  cases h

/-- Names that agree contain one hint at most. -/
theorem eq_of_mem (h : ModifiersMean names join hint) {first second : String}
    (hfirst : first ∈ names) (hfirst' : JoinModifier.ofName? first = none)
    (hsecond : second ∈ names) (hsecond' : JoinModifier.ofName? second = none) :
    first = second := by
  have hf := (h.hint_iff first).1 ⟨hfirst, JoinModifier.ofName?_eq_none_iff.1 hfirst'⟩
  have hs := (h.hint_iff second).1 ⟨hsecond, JoinModifier.ofName?_eq_none_iff.1 hsecond'⟩
  exact Option.some.inj (hf.symm.trans hs)

end ModifiersMean

namespace Modifiers

/-- A contradiction once found is kept. -/
theorem conflict_add {m : Modifiers} {e : ParseError} (h : m.conflict = some e)
    (modifier : String × Span) : (m.add modifier).conflict = some e := by
  obtain ⟨name, span⟩ := modifier
  cases hname : JoinModifier.ofName? name with
  | some join => rw [add_join hname, h, Option.some_or]
  | none => rw [add_hint hname, h, Option.some_or]

theorem conflict_foldl {m : Modifiers} {e : ParseError} (h : m.conflict = some e)
    (modifiers : List (String × Span)) : (modifiers.foldl add m).conflict = some e := by
  induction modifiers generalizing m with
  | nil => exact h
  | cons modifier modifiers ih => exact ih (conflict_add h modifier)

/-- One modifier more after names that agree: they still agree with it, or a contradiction is found
and they agree with no continuation. -/
theorem add_mean {m : Modifiers} {names : List String} (hm : ModifiersMean names m.join m.hint)
    (hconflict : m.conflict = none) (name : String) (span : Span) :
    ((m.add (name, span)).conflict = none ∧
        ModifiersMean (names ++ [name]) (m.add (name, span)).join (m.add (name, span)).hint) ∨
      ((∃ e, (m.add (name, span)).conflict = some e) ∧
        ∀ more join hint, ¬ModifiersMean (names ++ name :: more) join hint) := by
  have hinner := hm.inner_iff
  have hleft := hm.left_iff
  have hhint := hm.hint_iff
  cases hname : JoinModifier.ofName? name with
  | some join =>
    rw [add_join hname, hconflict, Option.none_or]
    by_cases hother : m.join ≠ .default ∧ m.join ≠ join
    -- The join said before is the other one, so both are among the names.
    · refine Or.inr ⟨⟨_, if_pos hother⟩, ?_⟩
      intro more join' hint' h
      apply h.not_both
      obtain ⟨rfl, rfl⟩ | ⟨rfl, rfl⟩ := JoinModifier.ofName?_eq_some_iff.1 hname <;>
        cases hjoin : m.join <;> simp_all
    · refine Or.inl ⟨if_neg hother, ?_⟩
      obtain ⟨rfl, rfl⟩ | ⟨rfl, rfl⟩ := JoinModifier.ofName?_eq_some_iff.1 hname
      · constructor <;> grind
      · constructor <;> grind
  | none =>
    rw [add_hint hname, hconflict, Option.none_or]
    obtain ⟨hne, hne'⟩ := JoinModifier.ofName?_eq_none_iff.1 hname
    cases hfirst : m.hint with
    | none =>
      refine Or.inl ⟨rfl, ?_⟩
      constructor <;> grind
    | some first =>
      obtain ⟨hmem, hfirst₁, hfirst₂⟩ := (hhint first).2 hfirst
      by_cases hsame : first = name
      -- A hint may be repeated; another one would have to be the same.
      · subst hsame
        refine Or.inl ⟨if_neg (fun h => h rfl), ?_⟩
        constructor <;> grind
      · refine Or.inr ⟨⟨_, if_pos hsame⟩, ?_⟩
        intro more join' hint' h
        apply hsame
        exact h.eq_of_mem (List.mem_append_left _ hmem)
          (JoinModifier.ofName?_eq_none_iff.2 ⟨hfirst₁, hfirst₂⟩)
          (List.mem_append_right _ List.mem_cons_self) hname

theorem foldl_add_eq_iff {m : Modifiers} {names : List String}
    (hm : ModifiersMean names m.join m.hint) (hconflict : m.conflict = none)
    {modifiers : List (String × Span)} {join : JoinModifier} {hint : Option String} :
    modifiers.foldl add m = ⟨join, hint, none⟩ ↔
      ModifiersMean (names ++ modifiers.map Prod.fst) join hint := by
  induction modifiers generalizing m names with
  | nil =>
    rw [List.foldl_nil, List.map_nil, List.append_nil]
    constructor
    · rintro rfl
      exact hm
    · intro h
      obtain ⟨rfl, rfl⟩ := hm.unique h
      rw [← hconflict]
  | cons modifier modifiers ih =>
    obtain ⟨name, span⟩ := modifier
    rw [List.foldl_cons, List.map_cons]
    rcases add_mean hm hconflict name span with ⟨hnone, hmean⟩ | ⟨⟨e, he⟩, hnot⟩
    · rw [ih hmean hnone, List.append_assoc, List.singleton_append]
    · refine iff_of_false ?_ (hnot _ _ _)
      intro h
      have hsome := conflict_foldl he modifiers
      rw [h] at hsome
      cases hsome

/-- No contradiction is found exactly in modifiers that agree, and they are read as what they agree
on. -/
theorem ofList_eq_iff {modifiers : List (String × Span)} {join : JoinModifier}
    {hint : Option String} :
    ofList modifiers = ⟨join, hint, none⟩ ↔
      ModifiersMean (modifiers.map Prod.fst) join hint :=
  foldl_add_eq_iff (m := {}) ModifiersMean.nil rfl

end Modifiers

end EmbedQuery
