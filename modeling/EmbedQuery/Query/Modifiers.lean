import EmbedQuery.Query.Basic

/-!
# Modifiers

The modifiers of a resource, `!name` each, in the order written. `inner` and `left` say how to join
and every other name is a hint. A resource has at most one of each; the first modifier that
contradicts an earlier one is reported.
-/

namespace EmbedQuery

/-- What the modifiers read so far say. -/
structure Modifiers where
  join : JoinModifier := .default
  hint : Option String := none
  /-- The first contradiction. -/
  conflict : Option ParseError := none
deriving DecidableEq, Repr

namespace Modifiers

/-- One modifier more. Of two join modifiers the later counts, of two hints the earlier. -/
def add (m : Modifiers) (modifier : String × Span) : Modifiers :=
  let (name, span) := modifier
  match JoinModifier.ofName? name, m.hint with
  | some join, _ =>
    let contradicts := m.join ≠ .default ∧ m.join ≠ join
    let found := if contradicts then some ⟨.conflictingJoins, span⟩ else none
    { m with join, conflict := m.conflict.or found }
  | none, none => { m with hint := some name }
  | none, some hint =>
    let found := if hint ≠ name then some ⟨.conflictingHints hint name, span⟩ else none
    { m with conflict := m.conflict.or found }

theorem add_join {name : String} {join : JoinModifier} (h : JoinModifier.ofName? name = some join)
    (m : Modifiers) (span : Span) :
    m.add (name, span) = { m with
      join
      conflict := m.conflict.or
        (if m.join ≠ .default ∧ m.join ≠ join then some ⟨.conflictingJoins, span⟩ else none) } := by
  simp only [add, h]

theorem add_hint {name : String} (h : JoinModifier.ofName? name = none) (m : Modifiers)
    (span : Span) :
    m.add (name, span) = { m with
      hint := m.hint.or (some name)
      conflict := m.conflict.or (m.hint.bind fun hint =>
        if hint ≠ name then some ⟨.conflictingHints hint name, span⟩ else none) } := by
  obtain ⟨join, hint, conflict⟩ := m
  cases hint <;> simp [add, h]

/-- What a sequence of modifiers says. -/
def ofList (modifiers : List (String × Span)) : Modifiers := modifiers.foldl add {}

end Modifiers

end EmbedQuery
