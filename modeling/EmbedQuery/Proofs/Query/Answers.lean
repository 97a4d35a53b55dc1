import EmbedQuery.Proofs.Query.Builder
import EmbedQuery.Proofs.Query.RoundTrip

/-!
# Answers depend on token kinds only

Blanks and the quotes of a name change where tokens stand, not what they are. Two queries whose
tokens are of the same kinds are answered alike, call by call (`Builder.answers_alike`): the answers
differ in spans at most, and so do the builders the calls leave behind.
-/

namespace EmbedQuery

/-- A strict reading fails with the first error. -/
theorem Parser.parseStrict_eq_error {p : Parser} {e : ParseError} {errors : List ParseError}
    (h : p.parse.1.errors = e :: errors) : p.parseStrict.1 = .error e := by
  unfold parseStrict
  rcases hparse : p.parse with ⟨tree, q⟩
  rw [hparse] at h
  simp [h]

/-- Errors that say the same about the same token, wherever it stands. -/
structure ParseError.Alike (e e' : ParseError) : Prop where
  message : e.message = e'.message
  expected : e.expected = e'.expected
  found : e.found = e'.found

/-- Queries, nested and numbered, that differ in spans at most. -/
structure QueryTree.Alike (t t' : QueryTree) (a a' : Arena) : Prop where
  items : t.eraseSpans = t'.eraseSpans
  arena : a.eraseSpans = a'.eraseSpans
  errors : List.Forall₂ ParseError.Alike t.errors t'.errors
  canonical : t.canonical = t'.canonical

theorem ParseError.alike_of_mapSpans {f f' : Span → Span} {e e' : ParseError}
    (h : e.mapSpans f = e'.mapSpans f') : e.Alike e' := by
  have hcause : e.cause = e'.cause := (ParseError.mk.inj h).1
  refine ⟨congrArg Cause.message hcause, ?_, ?_⟩
  · rw [ParseError.expected, ParseError.expected, hcause]
  · rw [ParseError.found, ParseError.found, hcause]

theorem QueryTree.errors_eraseSpans (t : QueryTree) :
    t.eraseSpans.errors = t.errors.map (ParseError.mapSpans fun _ => {}) :=
  listErrors_mapSpansList _ _

/-- The rest of a nested query follows from its items. -/
theorem QueryTree.alike_of_eraseSpans {t t' : QueryTree} (h : t.eraseSpans = t'.eraseSpans) :
    t.Alike t' t.arena t'.arena where
  items := h
  arena := by rw [← arena_eraseSpans, h, arena_eraseSpans]
  errors := by
    have herrors : t.errors.map (ParseError.mapSpans fun _ => {}) =
        t'.errors.map (ParseError.mapSpans fun _ => {}) := by
      rw [← errors_eraseSpans, h, errors_eraseSpans]
    have hsame : List.Forall₂ (fun e e' : ParseError =>
        e.mapSpans (fun _ => {}) = e'.mapSpans (fun _ => {})) t.errors t'.errors := by
      rwa [← List.forall₂_eq_eq_eq, List.forall₂_map_left_iff, List.forall₂_map_right_iff]
        at herrors
    exact hsame.imp fun _ _ => ParseError.alike_of_mapSpans
  canonical := by rw [← canonical_eraseSpans, h, canonical_eraseSpans]

/-- What a call answers: the query, nested and numbered, or the error of a strict call. -/
abbrev Answer := Except ParseError (QueryTree × Arena)

/-- Answers that are both a query or both an error, and differ in spans at most. -/
inductive Answer.Alike : Answer → Answer → Prop
  | ok {t t' : QueryTree} {a a' : Arena} (h : t.Alike t' a a') : Alike (.ok (t, a)) (.ok (t', a'))
  | error {e e' : ParseError} (h : e.Alike e') : Alike (.error e) (.error e')

namespace Builder

variable {b b' : Builder}

def answer (b : Builder) : Parser.Call → Answer
  | .parse => .ok (b.parser.parse.1, b.parse.1)
  | .parseStrict => b.parser.parseStrict.1.map fun t => (t, b.parse.1)

/-- What calls answer that are made one after another. -/
def answers (b : Builder) : List Parser.Call → List Answer
  | [] => []
  | call :: calls => b.answer call :: (b.after call).answers calls

/-- Builders without resources before the same kinds of tokens, in as many blocks, and halted both
or none. -/
structure Alike (b b' : Builder) : Prop where
  parser : b.parser.mapSpans (fun _ => {}) = b'.parser.mapSpans (fun _ => {})
  left : b.nodes = []
  right : b'.nodes = []

theorem alike_ofQuery {query query' : String}
    (h : (tokenize query).map Token.kind = (tokenize query').map Token.kind) :
    (ofQuery query).Alike (ofQuery query') := by
  rw [map_kind_tokenize, map_kind_tokenize, List.append_cancel_right_eq] at h
  refine ⟨?_, rfl, rfl⟩
  show (Parser.ofQuery query).mapSpans _ = (Parser.ofQuery query').mapSpans _
  rw [Parser.mapSpans_ofQuery, Parser.mapSpans_ofQuery, h]

/-- A reading without spans, and where it ends. -/
theorem Alike.parse_eraseSpans (h : b.Alike b') :
    b.parser.parse.1.eraseSpans = b'.parser.parse.1.eraseSpans ∧
      b.parser.parse.2.mapSpans (fun _ => {}) = b'.parser.parse.2.mapSpans (fun _ => {}) := by
  have hread := congrArg Parser.parse h.parser
  rw [Parser.parse_mapSpans Span.joining_const_default,
    Parser.parse_mapSpans Span.joining_const_default] at hread
  exact ⟨congrArg Prod.fst hread, congrArg Prod.snd hread⟩

theorem parse_of_nodes (h : b.nodes = []) :
    b.parse = (b.parser.parse.1.arena, ⟨b.parser.parse.2, []⟩) := by
  obtain ⟨p, nodes⟩ := b
  obtain rfl : nodes = [] := h
  exact parse_eq p

theorem Alike.after (h : b.Alike b') (call : Parser.Call) :
    (b.after call).Alike (b'.after call) := by
  have hafter : b.parse.2.Alike b'.parse.2 := by
    rw [parse_of_nodes h.left, parse_of_nodes h.right]
    exact ⟨h.parse_eraseSpans.2, rfl, rfl⟩
  cases call <;> exact hafter

theorem Alike.answer (h : b.Alike b') (call : Parser.Call) :
    (b.answer call).Alike (b'.answer call) := by
  have hread := QueryTree.alike_of_eraseSpans h.parse_eraseSpans.1
  cases call with
  | parse =>
    rw [Builder.answer, Builder.answer, parse_of_nodes h.left, parse_of_nodes h.right]
    exact .ok hread
  | parseStrict =>
    rw [Builder.answer, Builder.answer, parse_of_nodes h.left, parse_of_nodes h.right]
    -- The first error decides, and both have one or none.
    cases herrors : b.parser.parse.1.errors with
    | nil =>
      have herrors' : b'.parser.parse.1.errors = [] := by
        have h := hread.errors
        rwa [herrors, List.forall₂_nil_left_iff] at h
      rw [Parser.parseStrict_eq_ok.2 ⟨herrors, rfl⟩, Parser.parseStrict_eq_ok.2 ⟨herrors', rfl⟩]
      exact .ok hread
    | cons e errors =>
      have hcons := hread.errors
      rw [herrors, List.forall₂_cons_left_iff] at hcons
      obtain ⟨e', errors', he, -, herrors'⟩ := hcons
      rw [Parser.parseStrict_eq_error herrors, Parser.parseStrict_eq_error herrors']
      exact .error he

/-- Queries whose tokens are of the same kinds are answered alike, whatever the calls: with the same
items and numbers, the same errors, the same canonical form and the same outcome, up to spans. -/
theorem answers_alike (query query' : String) (calls : List Parser.Call)
    (h : (tokenize query).map Token.kind = (tokenize query').map Token.kind) :
    List.Forall₂ Answer.Alike ((ofQuery query).answers calls) ((ofQuery query').answers calls) := by
  have hrun (calls : List Parser.Call) (b b' : Builder) (hb : b.Alike b') :
      List.Forall₂ Answer.Alike (b.answers calls) (b'.answers calls) := by
    induction calls generalizing b b' with
    | nil => exact .nil
    | cons call calls ih => exact .cons (hb.answer call) (ih _ _ (hb.after call))
  exact hrun calls _ _ (alike_ofQuery h)

/-- A block that is not closed, written with quotes and blanks and without. -/
theorem answers_alike_unclosed :
    (tokenize "a b(c").map Token.kind = (tokenize " \"a\"\tb( \"c\"").map Token.kind ∧
      List.Forall₂ Answer.Alike
        ((ofQuery "a b(c").answers [.parseStrict, .parse, .parseStrict])
        ((ofQuery " \"a\"\tb( \"c\"").answers [.parseStrict, .parse, .parseStrict]) := by
  have h : (tokenize "a b(c").map Token.kind = (tokenize " \"a\"\tb( \"c\"").map Token.kind := by
    decide +kernel
  exact ⟨h, answers_alike _ _ _ h⟩

end Builder

end EmbedQuery
