import EmbedQuery.Proofs.Query.Calls
import EmbedQuery.Proofs.Query.Locality
import EmbedQuery.Proofs.Query.Numbering
import EmbedQuery.Proofs.Token.Splitting

/-!
# Queries with a comma between them

Two queries with a comma between them are read as they are apart, one behind the other
(`parse_append_comma`): where the first is read to its end, nothing of the second is looked at
before the comma (`Parser.parse_followedBy`), and behind it nothing of the first is remembered but
the place (`Parser.parse_withPrevious`). The text splits at the comma because no token of the first
query is a complaint, which would stop the reading.
-/

namespace EmbedQuery

/-! ### Places further on -/

/-- The span `n` bytes further on. -/
def Span.shift (n : Nat) (s : Span) : Span := ⟨n + s.start, n + s.stop⟩

theorem Span.joining_shift (n : Nat) : Span.Joining (Span.shift n) := by
  intro s t
  simp only [shift, cover, Nat.add_min_add_left, Nat.add_max_add_left]

/-- A text further on splits into the same tokens further on. -/
theorem Splits.shift (n : Nat) {m : Nat} {cs : List Char} {ts : List Token} (h : Splits m cs ts) :
    Splits (n + m) cs (ts.map (Token.mapSpans (Span.shift n))) := by
  induction h with
  | blanks hgap => exact .blanks hgap
  | token hgap hx hlongest _ ih =>
    simp only [← Nat.add_assoc] at ih
    simp only [List.map_cons, Token.mapSpans, Span.shift, ← Nat.add_assoc]
    exact .token hgap hx hlongest ih

namespace Parser

variable {α β : Type} {p q : Parser}

/-! ### The token before the place -/

/-- The parser, if the token before its place stood elsewhere. -/
def withPrevious (s : Span) (p : Parser) : Parser := { p with previous := s }

/-- The outcome of a step does not depend on the place of the token before, and if it succeeds, the
parser does not either. -/
structure Forgets (s : Span) (m : Reading α) (p : Parser) : Prop where
  ok : ∀ {a q}, m p = .ok a q → m (p.withPrevious s) = .ok a q
  error : ∀ {e q}, m p = .error e q → ∃ r, m (p.withPrevious s) = .error e r

namespace Forgets

variable {s : Span}

theorem get {k : Parser → Reading β} (hsame : k (p.withPrevious s) = k p)
    (hk : Forgets s (k p) p) : Forgets s (get >>= k) p where
  ok h := by
    show k (p.withPrevious s) (p.withPrevious s) = _
    rw [hsame]
    exact hk.ok h
  error h := by
    show ∃ r, k (p.withPrevious s) (p.withPrevious s) = _
    rw [hsame]
    exact hk.error h

theorem bind {m : Reading α} {k : α → Reading β} (hm : Forgets s m p) :
    Forgets s (m >>= k) p where
  ok h := by
    obtain ⟨a, r, hread, h⟩ := bind_eq_ok_iff.1 h
    rw [bind_of_ok (hm.ok hread), h]
  error {e q} h := by
    change EStateM.bind m k p = _ at h
    show ∃ r, EStateM.bind m k (p.withPrevious s) = _
    unfold EStateM.bind at h ⊢
    cases hread : m p with
    | ok a r =>
      rw [hread] at h
      rw [hm.ok hread]
      exact ⟨q, h⟩
    | error e' r =>
      rw [hread] at h
      cases h
      obtain ⟨r', hr'⟩ := hm.error hread
      rw [hr']
      exact ⟨r', rfl⟩

/-- If the token is there, its own place is remembered; if not, nothing was read. -/
theorem accept {kind : TokenKind} {k : Bool → Reading β} (hk : Forgets s (k false) p) :
    Forgets s (accept kind >>= k) p := by
  by_cases hkind : p.peek = kind
  · have haccept : Parser.accept kind p = .ok true p.advance := if_pos hkind
    have haccept' : Parser.accept kind (p.withPrevious s) = .ok true p.advance := if_pos hkind
    constructor
    · intro a q h
      rw [bind_of_ok haccept] at h
      exact (bind_of_ok haccept').trans h
    · intro e q h
      rw [bind_of_ok haccept] at h
      exact ⟨q, (bind_of_ok haccept').trans h⟩
  · have haccept : Parser.accept kind p = .ok false p := if_neg hkind
    have haccept' : Parser.accept kind (p.withPrevious s) = .ok false (p.withPrevious s) :=
      if_neg hkind
    constructor
    · intro a q h
      rw [bind_of_ok haccept] at h
      exact (bind_of_ok haccept').trans (hk.ok h)
    · intro e q h
      rw [bind_of_ok haccept] at h
      obtain ⟨r, hr⟩ := hk.error h
      exact ⟨r, (bind_of_ok haccept').trans hr⟩

end Forgets

theorem expectName_forgets (s : Span) (expected : String) :
    Forgets s (expectName expected) p where
  ok h := by
    unfold expectName at h ⊢
    rw [show (p.withPrevious s).peek = p.peek from rfl]
    split at h <;> cases h
    rfl
  error h := by
    unfold expectName at h ⊢
    rw [show (p.withPrevious s).peek = p.peek from rfl]
    split at h <;> cases h
    exact ⟨_, rfl⟩

theorem head_forgets (s : Span) (p : Parser) : Forgets s head p := by
  refine .get rfl (.accept ?_)
  refine .accept ?_
  exact .bind (.bind (expectName_forgets s _))

/-- What is read does not depend on where the token before the place stands. -/
theorem parse_withPrevious (s : Span) (hp : p.peek ≠ .eof) :
    (p.withPrevious s).parse.1 = p.parse.1 := by
  have htop : topItems p = itemsFrom (p.rest.length + 1) p := if_neg hp
  have htop' : topItems (p.withPrevious s) = itemsFrom (p.rest.length + 1) (p.withPrevious s) :=
    if_neg hp
  have hitem : item (itemsFrom p.rest.length) (p.withPrevious s) =
        item (itemsFrom p.rest.length) p ∨
      ∃ (e : ParseError) (q r : Parser),
        item (itemsFrom p.rest.length) p = (.invalid e [], q.halt) ∧
        item (itemsFrom p.rest.length) (p.withPrevious s) = (.invalid e [], r.halt) := by
    match h : head p with
    | .error e q =>
      obtain ⟨r, hr⟩ := (head_forgets s p).error h
      exact Or.inr ⟨e, q, r, item_error h, item_error hr⟩
    | .ok hd q =>
      refine Or.inl ?_
      rw [item, item, h, (head_forgets s p).ok h]
  obtain hsame | ⟨e, q, r, hq, hr⟩ := hitem
  · have hlist : topItems (p.withPrevious s) = topItems p := by
      rw [htop, htop', itemsFrom, itemsFrom, hsame]
    rw [parse_eq, parse_eq, hlist]
  · rw [itemsFrom_last hq (Or.inl rfl)] at htop
    rw [itemsFrom_last hr (Or.inl rfl)] at htop'
    rw [parse_eq, parse_eq, htop, htop']
    rfl

/-! ### Behind the comma -/

/-- A reading that comes to the end without being stopped has read a list. -/
theorem parse_of_goes (hp : p.peek ≠ .eof) (hgoes : p.parse.2.halted = false) :
    p.parse = (⟨(readList p).1⟩, (readList p).2) ∧ (readList p).2.peek = .eof := by
  have htop : topItems p = readList p := if_neg hp
  rw [parse_eq, htop] at hgoes ⊢
  split at hgoes
  · next hend =>
    refine ⟨if_pos hend, ?_⟩
    simpa [show (readList p).2.halted = false from hgoes] using hend
  · cases hgoes

/-- A query that is read to its end goes on behind a comma with the query that follows. -/
theorem parse_followedBy (heof : p.eof.kind = .eof) (hp : p.peek ≠ .eof)
    (hgoes : p.parse.2.halted = false) (hend : p.parse.2.rest = []) :
    Passes p p.parse.2 ∧ ∀ c, (p.parse.2.followedBy c).advance.peek ≠ .eof →
      (p.followedBy c).parse.1 =
        ⟨p.parse.1.items ++ (p.parse.2.followedBy c).advance.parse.1.items⟩ := by
  obtain ⟨hparse, -⟩ := parse_of_goes hp hgoes
  rw [hparse] at hgoes hend ⊢
  obtain ⟨hpasses, hlist⟩ := readList_followedBy heof hgoes hend
  refine ⟨hpasses, fun c hmore => ?_⟩
  have hpeek : (p.followedBy c).peek ≠ .eof := by
    rw [peek_followedBy (rest_ne_nil heof hp)]
    exact hp
  have htop : topItems (p.followedBy c) = readList (p.followedBy c) := if_neg hpeek
  generalize hq : ((readList p).2.followedBy c).advance = q at hlist hmore ⊢
  have htop' : topItems q = readList q := if_neg hmore
  rw [parse_eq, parse_eq, htop, htop', hlist c, hq]
  split
  · rfl
  · rw [List.append_assoc]

/-! ### Two queries -/

/-- The continuation of a query of `n` bytes with a comma and another query. -/
def Continuation.ofQuery (n : Nat) (query : String) : Continuation where
  comma := ⟨.comma, ⟨n, n + 1⟩⟩
  more := (Parser.ofQuery query).rest.map (Token.mapSpans (Span.shift (n + 1)))
  eof := (Parser.ofQuery query).eof.mapSpans (Span.shift (n + 1))
  isComma := rfl
  isEof := rfl

/-- A text goes on behind a comma, if none of its tokens is a complaint. -/
theorem ofQuery_append_comma {a : String} (b : String)
    (hkinds : ∀ t ∈ (ofQuery a).rest, ∀ message, t.kind ≠ .error message) :
    ofQuery (a ++ "," ++ b) = (ofQuery a).followedBy (.ofQuery (byteLength a.toList) b) := by
  have htext : (a ++ "," ++ b).toList = a.toList ++ ',' :: b.toList := by simp
  have hfirst : Splits 0 a.toList (ofQuery a).rest := Lexer.splits_tokens (Lexer.ofQuery a)
  have hsecond : Splits 0 b.toList (ofQuery b).rest := Lexer.splits_tokens (Lexer.ofQuery b)
  have hshift := hsecond.shift (byteLength a.toList + 1)
  have hboth := hfirst.append_comma hkinds (by rwa [Nat.zero_add])
  have htokens := hboth.tokens_eq
  rw [← htext, Nat.zero_add] at htokens
  have heof : (ofQuery (a ++ "," ++ b)).eof =
      (ofQuery b).eof.mapSpans (Span.shift (byteLength a.toList + 1)) := by
    show Token.mk .eof (.point (0 + byteLength (a ++ "," ++ b).toList)) =
      ⟨.eof, Span.shift _ (.point (0 + byteLength b.toList))⟩
    have hcomma : (',' : Char).utf8Size = 1 := by decide
    simp [htext, Span.shift, Span.point, hcomma, Nat.add_assoc]
  show Parser.mk _ (Lexer.tokens ⟨0, (a ++ "," ++ b).toList⟩) (ofQuery (a ++ "," ++ b)).eof _ _ = _
  rw [htokens, heof]
  rfl

/-- A parser of a query that stands before the end has no tokens left. -/
theorem rest_eq_nil_of_reaches {query : String} (h : Reaches (ofQuery query) p)
    (heof : p.peek = .eof) : p.rest = [] := by
  by_contra hrest
  obtain ⟨t, more, hcons⟩ := List.exists_cons_of_ne_nil hrest
  refine eof_not_mem_unread h ?_
  rw [peek, current, hcons] at heof
  rw [unread, hcons, ← heof]
  exact List.mem_cons_self

/-- A query with items does not begin with the end. -/
theorem peek_ne_eof_of_items {query : String} (h : (QueryTree.parse query).items ≠ []) :
    (ofQuery query).peek ≠ .eof := by
  intro heof
  apply h
  have htop : topItems (ofQuery query) = ([], ofQuery query) := if_pos heof
  rw [QueryTree.parse, parse_eq, htop]
  simp [heof]

/-- Behind a query that is read to its end and a comma stands a parser of the query that follows, as
many bytes further on. -/
theorem advance_followedBy_ofQuery {n : Nat} (query : String) (hend : p.rest = [])
    (hdepth : p.depth = 0) (hgoes : p.halted = false) :
    (p.followedBy (.ofQuery n query)).advance =
      ((ofQuery query).mapSpans (Span.shift (n + 1))).withPrevious ⟨n, n + 1⟩ := by
  simp only [followedBy, hend, hdepth, hgoes]
  rfl

/-- The tree of two queries with a comma between them. -/
theorem items_append_comma {a b : String} (hgoes : (ofQuery a).parse.2.halted = false)
    (ha : (QueryTree.parse a).items ≠ []) (hb : (QueryTree.parse b).items ≠ []) :
    QueryTree.parse (a ++ "," ++ b) =
      ⟨(QueryTree.parse a).items ++
        mapSpansList (Span.shift (byteLength a.toList + 1)) (QueryTree.parse b).items⟩ := by
  have hreaches := parse_reaches (ofQuery a)
  have hpeek := peek_ne_eof_of_items ha
  obtain ⟨hread, heof⟩ := parse_of_goes hpeek hgoes
  rw [← congrArg Prod.snd hread] at heof
  have hend : (ofQuery a).parse.2.rest = [] := rest_eq_nil_of_reaches hreaches heof
  obtain ⟨⟨used, hused, hkinds⟩, hparse⟩ := parse_followedBy rfl hpeek hgoes hend
  rw [hend, List.append_nil] at hused
  have hsecond := advance_followedBy_ofQuery (n := byteLength a.toList) b hend hreaches.depth hgoes
  have hpeek' : ((ofQuery b).mapSpans (Span.shift (byteLength a.toList + 1))).peek ≠ .eof := by
    rw [peek_mapSpans]
    exact peek_ne_eof_of_items hb
  have hboth := hparse (.ofQuery (byteLength a.toList) b) (by rw [hsecond]; exact hpeek')
  rw [hsecond, parse_withPrevious _ hpeek', parse_mapSpans (Span.joining_shift _)] at hboth
  rw [QueryTree.parse, ofQuery_append_comma b (hused ▸ hkinds), hboth]
  rfl

/-- Where the parser is not halted behind the first query, two queries with a comma between them
have the items and the resources of both, one behind the other: the second stands as many bytes
further on as there are before it, and its numbers follow on those of the first. -/
theorem parse_append_comma {a b : String} (hgoes : (ofQuery a).parse.2.halted = false)
    (ha : (QueryTree.parse a).items ≠ []) (hb : (QueryTree.parse b).items ≠ []) :
    (QueryTree.parse (a ++ "," ++ b)).arena =
      (QueryTree.parse a).arena ++
        (QueryTree.parse b).arena.mapSpans (Span.shift (byteLength a.toList + 1)) := by
  rw [items_append_comma hgoes ha hb, QueryTree.arena_append, ← QueryTree.arena_mapSpans]
  rfl

/-- A first query with a block in a block and two items that gave way to errors, one of them a block
whose resource keeps its number, and a second one that is stopped behind a block. -/
theorem parse_append_comma_nested :
    (ofQuery "é::int, :y(z), p!hint(q, r(s.sum())), t.u()").parse.2.halted = false ∧
      (QueryTree.parse "é::int, :y(z), p!hint(q, r(s.sum())), t.u()").items ≠ [] ∧
      (QueryTree.parse "v!a!b(w(x)), d e").items ≠ [] ∧
      (QueryTree.parse
          ("é::int, :y(z), p!hint(q, r(s.sum())), t.u()" ++ "," ++ "v!a!b(w(x)), d e")).arena =
        (QueryTree.parse "é::int, :y(z), p!hint(q, r(s.sum())), t.u()").arena ++
          (QueryTree.parse "v!a!b(w(x)), d e").arena.mapSpans (Span.shift
            (byteLength "é::int, :y(z), p!hint(q, r(s.sum())), t.u()".toList + 1)) := by
  have hgoes : (ofQuery "é::int, :y(z), p!hint(q, r(s.sum())), t.u()").parse.2.halted = false := by
    decide +kernel
  have ha : (QueryTree.parse "é::int, :y(z), p!hint(q, r(s.sum())), t.u()").items ≠ [] :=
    List.ne_nil_of_length_pos (by decide +kernel)
  have hb : (QueryTree.parse "v!a!b(w(x)), d e").items ≠ [] :=
    List.ne_nil_of_length_pos (by decide +kernel)
  exact ⟨hgoes, ha, hb, parse_append_comma hgoes ha hb⟩

end Parser

end EmbedQuery
