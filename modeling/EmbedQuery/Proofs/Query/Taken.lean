import EmbedQuery.Proofs.Query.Lists
import EmbedQuery.Proofs.Token.Kinds
import Mathlib.Data.List.Induction

/-!
# What the head of an item takes

Whatever it makes of them, the head of an item takes tokens of a simple form: a star; or a front, up
to the modifiers, with a function and a cast behind it, or with the parentheses of `count()`, or
with the parenthesis that opens a block (`Front`, `IsWhole`). Where it fails, it stands before a
token that does not go on with such a form, or behind a parenthesis that is too deep.

`Moves start used p` keeps the tokens that were taken. For each reading step there is one lemma that
says what it takes when it succeeds (`_moves`) and one that says where it fails (`_error`);
`head_moves` and `head_error` put them together. They also tell where the faults lie that an item is
read with: on one token that was taken, or on all of them.
-/

namespace EmbedQuery

/-! ### The tokens of an item outside of its list -/

/-- `.function()`, if a function is called, be it an aggregate or not. -/
def functionTokens : Option String → List TokenKind
  | none => []
  | some function => [.dot, .identifier function, .leftParen, .rightParen]

/-- Parentheses behind the front mean the number of rows, if there is nothing in them. -/
def Front.IsCount (f : Front) : Prop := f.name = "count" ∧ f.modifiers = []

/-- The tokens of an item that is no block, right or wrong. -/
inductive IsWhole : List TokenKind → Prop
  | star : IsWhole [.star]
  | suffix (f : Front) (function cast : Option String) :
      IsWhole (f.tokens ++ (functionTokens function ++ castTokens cast))
  | count {f : Front} (hcount : f.IsCount) (cast : Option String) :
      IsWhole (f.tokens ++ (.leftParen :: .rightParen :: castTokens cast))

/-! ### Where faults lie -/

/-- The span is that of one of the tokens, or covers them all. -/
def Placed (ts : List Token) (s : Span) : Prop :=
  (∃ t ∈ ts, s = t.span) ∨
    ∃ first last, ts.head? = some first ∧ ts.getLast? = some last ∧ s = first.span.cover last.span

theorem Placed.of_mem {ts : List Token} {t : Token} (h : t ∈ ts) : Placed ts t.span :=
  Or.inl ⟨t, h, rfl⟩

namespace Modifiers

/-- A contradiction lies on the modifier that contradicts. -/
theorem conflict_add_span {m : Modifiers} {modifier : String × Span} {e : ParseError}
    (h : (m.add modifier).conflict = some e) : m.conflict = some e ∨ e.span = modifier.2 := by
  obtain ⟨name, span⟩ := modifier
  cases hname : JoinModifier.ofName? name with
  | some join =>
    rw [add_join hname] at h
    rcases Option.or_eq_some_iff.1 h with hold | ⟨-, hnew⟩
    · exact Or.inl hold
    · obtain ⟨-, ⟨⟩⟩ := Option.ite_none_right_eq_some.1 hnew
      exact Or.inr rfl
  | none =>
    rw [add_hint hname] at h
    rcases Option.or_eq_some_iff.1 h with hold | ⟨-, hnew⟩
    · exact Or.inl hold
    · obtain ⟨hint, -, hnew⟩ := Option.bind_eq_some_iff.1 hnew
      obtain ⟨-, ⟨⟩⟩ := Option.ite_none_right_eq_some.1 hnew
      exact Or.inr rfl

theorem conflict_ofList_span {modifiers : List (String × Span)} {e : ParseError}
    (h : (ofList modifiers).conflict = some e) : ∃ m ∈ modifiers, e.span = m.2 := by
  induction modifiers using List.reverseRecOn with
  | nil => cases h
  | append_singleton modifiers last ih =>
    rw [ofList, List.foldl_append] at h
    rcases conflict_add_span h with hold | hlast
    · obtain ⟨m, hm, hspan⟩ := ih hold
      exact ⟨m, List.mem_append_left _ hm, hspan⟩
    · exact ⟨last, by simp, hlast⟩

end Modifiers

namespace Parser

variable {α β : Type} {start p q : Parser} {used : List Token} {e : ParseError}

/-! ### Tokens that were taken -/

/-- The parser `q` stands behind `p`, the tokens `used` having been taken between them. -/
structure Moves (p : Parser) (used : List Token) (q : Parser) : Prop where
  rest : p.rest = used ++ q.rest
  eof : q.eof = p.eof
  isEof : q.eof.kind = .eof
  depth : q.depth = p.depth
  previous : q.previous = (used.getLast?.map Token.span).getD p.previous

namespace Moves

theorem refl (heof : p.eof.kind = .eof) : Moves p [] p := ⟨rfl, rfl, heof, rfl, rfl⟩

/-- A token that is there is taken. -/
theorem advance (h : Moves start used p) (hpeek : p.peek ≠ .eof) :
    Moves start (used ++ [p.current]) p.advance where
  rest := by
    obtain ⟨t, more, hcons⟩ := List.exists_cons_of_ne_nil (rest_ne_nil h.isEof hpeek)
    rw [h.rest, List.append_assoc]
    simp [Parser.advance, current, hcons]
  eof := h.eof
  isEof := h.isEof
  depth := h.depth
  previous := by simp [Parser.advance]

theorem trans {more : List Token} (h : Moves start used p) (h' : Moves p more q) :
    Moves start (used ++ more) q where
  rest := by rw [h.rest, h'.rest, List.append_assoc]
  eof := h'.eof.trans h.eof
  isEof := h'.isEof
  depth := h'.depth.trans h.depth
  previous := by
    rw [h'.previous, h.previous, List.getLast?_append]
    cases more.getLast? <;> rfl

theorem length_advance_lt (h : Moves p used q) (hpeek : q.peek ≠ .eof) :
    q.advance.rest.length < p.rest.length := by
  have hlt := Parser.length_advance_lt h.isEof hpeek
  rw [h.rest, List.length_append]
  omega

/-- What was taken in a block was taken around it. -/
theorem leave (h : Moves p.enter used q) : Moves p used q.leave where
  rest := h.rest
  eof := h.eof
  isEof := h.isEof
  depth := by
    rw [Parser.leave, h.depth]
    rfl
  previous := h.previous

/-- Behind tokens that were taken, the place before is that of the last of them. -/
theorem exists_previous (h : Moves start used p) (hne : used ≠ []) :
    ∃ t, used.getLast? = some t ∧ p.previous = t.span := by
  obtain ⟨t, ht⟩ := Option.isSome_iff_exists.1 (List.getLast?_isSome.2 hne)
  refine ⟨t, ht, ?_⟩
  rw [h.previous, ht]
  rfl

/-- The first token that was taken is where the parser began. -/
theorem head?_used (h : Moves start used p) (hne : used ≠ []) :
    used.head? = some start.current := by
  obtain ⟨t, more, rfl⟩ := List.exists_cons_of_ne_nil hne
  rw [current, h.rest]
  rfl

end Moves

/-- A step followed by another fails where the first fails, or behind it where the second does. -/
theorem bind_eq_error_iff {m : Reading α} {f : α → Reading β} :
    (m >>= f) p = .error e q ↔ m p = .error e q ∨ ∃ a r, m p = .ok a r ∧ f a r = .error e q := by
  show EStateM.bind m f p = _ ↔ _
  unfold EStateM.bind
  cases m p with
  | ok a r =>
    constructor
    · intro h
      exact Or.inr ⟨a, r, rfl, h⟩
    · rintro (h | ⟨_, _, ⟨⟩, h⟩)
      · cases h
      · exact h
  | error e' r => simp

/-- A step that begins with looking for a token does not fail there. -/
theorem accept_bind_eq_error {kind : TokenKind} {k : Bool → Reading β}
    (h : (accept kind >>= k) p = .error e q) :
    ∃ found r, accept kind p = .ok found r ∧ k found r = .error e q := by
  refine (bind_eq_error_iff.1 h).resolve_left fun hread => ?_
  unfold accept at hread
  split at hread <;> cases hread

theorem get_bind_eq_error {k : Parser → Reading β} (h : (get >>= k) p = .error e q) :
    k p p = .error e q := h

/-- The error is about the token behind the place. -/
def Misses (p : Parser) (e : ParseError) : Prop := ∃ expected, e = p.unexpected expected

/-! ### Single tokens -/

theorem accept_moves {kind : TokenKind} {found : Bool} (h : Moves start used p)
    (hkind : kind ≠ .eof) (hread : accept kind p = .ok found q) :
    (found = true ∧ ∃ t, t.kind = kind ∧ Moves start (used ++ [t]) q) ∨
      (found = false ∧ p.peek ≠ kind ∧ p = q) := by
  obtain ⟨rfl, hpeek, rfl⟩ | ⟨rfl, hpeek, rfl⟩ := accept_cases hread
  · exact Or.inl ⟨rfl, p.current, hpeek, h.advance (hpeek ▸ hkind)⟩
  · exact Or.inr ⟨rfl, hpeek, rfl⟩

theorem expect_moves {kind : TokenKind} {expected : String} {u : Unit} (h : Moves start used p)
    (hkind : kind ≠ .eof) (hread : expect kind expected p = .ok u q) :
    ∃ t, t.kind = kind ∧ Moves start (used ++ [t]) q := by
  unfold expect at hread
  split at hread
  · next hpeek =>
    cases hread
    exact ⟨p.current, hpeek, h.advance (hpeek ▸ hkind)⟩
  · cases hread

theorem expect_error {kind : TokenKind} {expected : String}
    (hread : expect kind expected p = .error e q) : p = q ∧ q.Misses e := by
  unfold expect at hread
  split at hread
  · cases hread
  · cases hread
    exact ⟨rfl, expected, rfl⟩

theorem expectName_moves {expected name : String} (h : Moves start used p)
    (hread : expectName expected p = .ok name q) :
    ∃ t, t.kind = .identifier name ∧ Moves start (used ++ [t]) q := by
  obtain ⟨hpeek, rfl⟩ := expectName_cases hread
  exact ⟨p.current, hpeek, h.advance (hpeek ▸ TokenKind.noConfusion)⟩

theorem expectName_error {expected : String} (hread : expectName expected p = .error e q) :
    p = q ∧ q.Misses e := by
  unfold expectName at hread
  split at hread
  · cases hread
  · cases hread
    exact ⟨rfl, expected, rfl⟩

/-! ### Names, functions and casts -/

theorem readName_moves {label : Option String} {name : String} (h : Moves start used p)
    (hread : readName p = .ok (label, name) q) :
    ∃ more, more.map Token.kind = aliasTokens label ++ [.identifier name] ∧
      Moves start (used ++ more) q := by
  obtain ⟨first, r, hfirst, hread⟩ := bind_eq_ok_iff.1 hread
  obtain ⟨t, ht, h⟩ := expectName_moves h hfirst
  obtain ⟨colon, r', hcolon, hread⟩ := bind_eq_ok_iff.1 hread
  obtain ⟨rfl, c, hc, h⟩ | ⟨rfl, -, rfl⟩ := accept_moves h (by decide) hcolon
  · obtain ⟨second, r'', hsecond, hread⟩ := bind_eq_ok_iff.1 hread
    obtain ⟨u, hu, h⟩ := expectName_moves h hsecond
    obtain ⟨heq, rfl⟩ := pure_eq_ok_iff.1 hread
    cases heq
    exact ⟨[t, c, u], by simp [ht, hc, hu, aliasTokens], by simpa using h⟩
  · obtain ⟨heq, rfl⟩ := pure_eq_ok_iff.1 hread
    cases heq
    exact ⟨[t], by simp [ht, aliasTokens], h⟩

theorem readName_error (h : Moves start used p) (hread : readName p = .error e q) :
    q.Misses e ∧ ∃ more label, more.map Token.kind = aliasTokens label ∧
      Moves start (used ++ more) q := by
  obtain hfirst | ⟨first, r, hfirst, hread⟩ := bind_eq_error_iff.1 hread
  · obtain ⟨rfl, hmisses⟩ := expectName_error hfirst
    exact ⟨hmisses, [], none, rfl, by simpa using h⟩
  obtain ⟨t, ht, h⟩ := expectName_moves h hfirst
  obtain ⟨colon, r', hcolon, hread⟩ := accept_bind_eq_error hread
  obtain ⟨rfl, c, hc, h⟩ | ⟨rfl, -, rfl⟩ := accept_moves h (by decide) hcolon
  · obtain hsecond | ⟨second, r'', -, hread⟩ := bind_eq_error_iff.1 hread
    · obtain ⟨rfl, hmisses⟩ := expectName_error hsecond
      exact ⟨hmisses, [t, c], some first, by simp [ht, hc, aliasTokens], by simpa using h⟩
    · cases hread
  · cases hread

theorem readCast_moves {cast : Option String} (h : Moves start used p)
    (hread : readCast p = .ok cast q) :
    ∃ more, more.map Token.kind = castTokens cast ∧ Moves start (used ++ more) q := by
  obtain ⟨found, r, hfound, hread⟩ := bind_eq_ok_iff.1 hread
  obtain ⟨rfl, c, hc, h⟩ | ⟨rfl, -, rfl⟩ := accept_moves h (by decide) hfound
  · obtain ⟨target, r', htarget, hread⟩ := bind_eq_ok_iff.1 hread
    obtain ⟨t, ht, h⟩ := expectName_moves h htarget
    obtain ⟨rfl, rfl⟩ := pure_eq_ok_iff.1 hread
    exact ⟨[c, t], by simp [hc, ht, castTokens], by simpa using h⟩
  · obtain ⟨rfl, rfl⟩ := pure_eq_ok_iff.1 hread
    exact ⟨[], rfl, by simpa using h⟩

/-- Where a cast fails, a type is missing. -/
theorem readCast_error (h : Moves start used p) (hread : readCast p = .error e q) :
    q.Misses e ∧ ∃ more, more.map Token.kind = [.doubleColon] ∧ Moves start (used ++ more) q := by
  obtain ⟨found, r, hfound, hread⟩ := accept_bind_eq_error hread
  obtain ⟨rfl, c, hc, h⟩ | ⟨rfl, -, rfl⟩ := accept_moves h (by decide) hfound
  · obtain htarget | ⟨target, r', -, hread⟩ := bind_eq_error_iff.1 hread
    · obtain ⟨rfl, hmisses⟩ := expectName_error htarget
      exact ⟨hmisses, [c], by simp [hc], h⟩
    · cases hread
  · cases hread

theorem readAggregate_moves {aggregate : Except ParseError (Option Aggregate)}
    (h : Moves start used p) (hread : readAggregate p = .ok aggregate q) :
    ∃ more function, more.map Token.kind = functionTokens function ∧
      Moves start (used ++ more) q ∧
      ∀ error, aggregate = .error error →
        error.IsRecoverable ∧ ∃ t ∈ more, error.span = t.span := by
  obtain ⟨found, r, hfound, hread⟩ := bind_eq_ok_iff.1 hread
  obtain ⟨rfl, dot, hdot, h⟩ | ⟨rfl, -, rfl⟩ := accept_moves h (by decide) hfound
  · obtain ⟨_, _, hget, hread⟩ := bind_eq_ok_iff.1 hread
    obtain ⟨rfl, rfl⟩ := get_eq_ok_iff.1 hget
    obtain ⟨function, r', hfunction, hread⟩ := bind_eq_ok_iff.1 hread
    obtain ⟨hpeek, rfl⟩ := expectName_cases hfunction
    have h := h.advance (hpeek ▸ TokenKind.noConfusion)
    obtain ⟨_, r', hopen, hread⟩ := bind_eq_ok_iff.1 hread
    obtain ⟨t, ht, h⟩ := expect_moves h (by decide) hopen
    obtain ⟨_, r', hclose, hread⟩ := bind_eq_ok_iff.1 hread
    obtain ⟨u, hu, h⟩ := expect_moves h (by decide) hclose
    have hkind : r.current.kind = .identifier function := hpeek
    refine ⟨[dot, r.current, t, u], some function, ?_, ?_⟩
    · simp [hdot, hkind, ht, hu, functionTokens]
    -- The complaint that there is no such function lies on its name.
    cases hname : Aggregate.ofName? function with
    | some aggregate =>
      rw [hname] at hread
      obtain ⟨rfl, rfl⟩ := pure_eq_ok_iff.1 hread
      refine ⟨by simpa using h, ?_⟩
      rintro _ ⟨⟩
    | none =>
      rw [hname] at hread
      obtain ⟨rfl, rfl⟩ := pure_eq_ok_iff.1 hread
      refine ⟨by simpa using h, ?_⟩
      rintro _ ⟨⟩
      exact ⟨rfl, r.current, by simp, rfl⟩
  · obtain ⟨rfl, rfl⟩ := pure_eq_ok_iff.1 hread
    refine ⟨[], none, rfl, by simpa using h, ?_⟩
    rintro _ ⟨⟩

/-- Where a function fails, its tokens have begun. -/
theorem readAggregate_error (h : Moves start used p) (hread : readAggregate p = .error e q) :
    q.Misses e ∧ ∃ more function fill,
      more.map Token.kind ++ fill = functionTokens (some function) ∧ (∀ k ∈ fill, k.IsRead) ∧
        Moves start (used ++ more) q := by
  obtain ⟨found, r, hfound, hread⟩ := accept_bind_eq_error hread
  obtain ⟨rfl, dot, hdot, h⟩ | ⟨rfl, -, rfl⟩ := accept_moves h (by decide) hfound
  · have hread := get_bind_eq_error hread
    obtain hfunction | ⟨function, r', hfunction, hread⟩ := bind_eq_error_iff.1 hread
    · obtain ⟨rfl, hmisses⟩ := expectName_error hfunction
      exact ⟨hmisses, [dot], "f", [.identifier "f", .leftParen, .rightParen],
        by simp [hdot, functionTokens], by simp [TokenKind.IsRead], h⟩
    obtain ⟨name, hname, h⟩ := expectName_moves h hfunction
    obtain hopen | ⟨_, r'', hopen, hread⟩ := bind_eq_error_iff.1 hread
    · obtain ⟨rfl, hmisses⟩ := expect_error hopen
      exact ⟨hmisses, [dot, name], function, [.leftParen, .rightParen],
        by simp [hdot, hname, functionTokens], by simp [TokenKind.IsRead], by simpa using h⟩
    obtain ⟨t, ht, h⟩ := expect_moves h (by decide) hopen
    obtain hclose | ⟨_, r''', -, hread⟩ := bind_eq_error_iff.1 hread
    · obtain ⟨rfl, hmisses⟩ := expect_error hclose
      exact ⟨hmisses, [dot, name, t], function, [.rightParen],
        by simp [hdot, hname, ht, functionTokens], by simp [TokenKind.IsRead], by simpa using h⟩
    · cases hfound : Aggregate.ofName? function with
      | some aggregate =>
        rw [hfound] at hread
        cases hread
      | none =>
        rw [hfound] at hread
        cases hread
  · cases hread

/-! ### Modifiers -/

theorem exists_behindModifiers (h : Moves start used p) :
    ∃ more, more.map Token.kind = modifiersTokens ((takeModifiers p.rest).1.map Prod.fst) ∧
      (∀ m ∈ (takeModifiers p.rest).1, ∃ t ∈ more, m.2 = t.span) ∧
      Moves start (used ++ more) p.behindModifiers := by
  obtain ⟨more, hmore⟩ := exists_takesModifiers p.rest
  refine ⟨more, hmore.kinds, hmore.spans, h.trans ⟨hmore.rest, rfl, h.isEof, rfl, ?_⟩⟩
  rw [hmore.last]
  rfl

theorem readModifiers_moves {modifiers : List (String × Span)} (h : Moves start used p)
    (hread : readModifiers p = .ok modifiers q) :
    ∃ more, more.map Token.kind = modifiersTokens (modifiers.map Prod.fst) ∧
      (∀ m ∈ modifiers, ∃ t ∈ more, m.2 = t.span) ∧ Moves start (used ++ more) q := by
  obtain ⟨more, hkinds, hspans, h⟩ := exists_behindModifiers h
  rw [readModifiers_eq] at hread
  obtain ⟨found, r, hfound, hafter⟩ := bind_eq_ok_iff.1 hread
  obtain ⟨rfl, -, -, -⟩ | ⟨rfl, -, rfl⟩ := accept_moves h (by decide) hfound
  · cases hafter
  · obtain ⟨rfl, rfl⟩ := pure_eq_ok_iff.1 hafter
    exact ⟨more, hkinds, hspans, h⟩

/-- Where modifiers fail, a name is missing behind a mark. -/
theorem readModifiers_error (h : Moves start used p) (hread : readModifiers p = .error e q) :
    q.Misses e ∧ ∃ more names, more.map Token.kind = modifiersTokens names ++ [.bang] ∧
      Moves start (used ++ more) q := by
  obtain ⟨more, hkinds, -, h⟩ := exists_behindModifiers h
  rw [readModifiers_eq] at hread
  obtain ⟨found, r, hfound, hafter⟩ := accept_bind_eq_error hread
  obtain ⟨rfl, mark, hmark, h⟩ | ⟨rfl, -, rfl⟩ := accept_moves h (by decide) hfound
  · cases hafter
    exact ⟨⟨_, rfl⟩, more ++ [mark], (takeModifiers p.rest).1.map Prod.fst,
      by simp [hkinds, hmark], by simpa using h⟩
  · cases hafter

/-! ### Behind the front -/

/-- A fault takes the place of an item without errors. -/
theorem errors_itemOr_eq (fault : Option ParseError) {item : SelectItem} (h : item.errors = []) :
    (itemOr fault item).errors = fault.toList := by
  cases fault with
  | none => exact h
  | some error => rfl

theorem readOpening_moves {resource : Resource} {isCount : Bool} {fault : Option ParseError}
    {hd : Head} (h : Moves start used p) (hread : readOpening resource isCount fault p = .ok hd q) :
    (isCount = true ∧ ∃ more cast item, more.map Token.kind = .rightParen :: castTokens cast ∧
        Moves start (used ++ more) q ∧ hd = .complete item ∧ item.errors = fault.toList) ∨
      (p = q ∧ hd = .opening resource fault ∧ q.depth < maxDepth ∧
        (isCount = true → q.peek ≠ .rightParen)) := by
  obtain ⟨_, _, hget, hafter⟩ := bind_eq_ok_iff.1 hread
  obtain ⟨rfl, rfl⟩ := get_eq_ok_iff.1 hget
  split at hafter
  · next hcount =>
    obtain ⟨rfl, hpeek⟩ : isCount = true ∧ p.peek = .rightParen := by simpa using hcount
    obtain ⟨_, r, hadvance, hafter⟩ := bind_eq_ok_iff.1 hafter
    cases hadvance
    obtain ⟨cast, r, hcast, hafter⟩ := bind_eq_ok_iff.1 hafter
    obtain ⟨more, hmore, h⟩ := readCast_moves (h.advance (hpeek ▸ TokenKind.noConfusion)) hcast
    obtain ⟨_, _, hget, hafter⟩ := bind_eq_ok_iff.1 hafter
    obtain ⟨rfl, rfl⟩ := get_eq_ok_iff.1 hget
    obtain ⟨rfl, rfl⟩ := pure_eq_ok_iff.1 hafter
    have hkind : p.current.kind = .rightParen := hpeek
    exact Or.inl ⟨rfl, p.current :: more, cast, _, by simp [hkind, hmore], by simpa using h, rfl,
      errors_itemOr_eq fault rfl⟩
  · next hcount =>
    obtain ⟨_, _, hget, hafter⟩ := bind_eq_ok_iff.1 hafter
    obtain ⟨rfl, rfl⟩ := get_eq_ok_iff.1 hget
    split at hafter
    · cases hafter
    · next hdepth =>
      obtain ⟨rfl, rfl⟩ := pure_eq_ok_iff.1 hafter
      refine Or.inr ⟨rfl, rfl, Nat.lt_of_not_le hdepth, fun hc hpeek => hcount ?_⟩
      simp [hc, hpeek]

theorem readOpening_error {resource : Resource} {isCount : Bool} {fault : Option ParseError}
    (h : Moves start used p) (hread : readOpening resource isCount fault p = .error e q) :
    (isCount = true ∧ q.Misses e ∧ ∃ more,
        more.map Token.kind = [.rightParen, .doubleColon] ∧ Moves start (used ++ more) q) ∨
      (p = q ∧ e = ⟨.tooDeep, q.previous⟩) := by
  have hafter := get_bind_eq_error hread
  split at hafter
  · next hcount =>
    obtain ⟨rfl, hpeek⟩ : isCount = true ∧ p.peek = .rightParen := by simpa using hcount
    obtain hadvance | ⟨_, r, hadvance, hafter⟩ := bind_eq_error_iff.1 hafter
    · cases hadvance
    cases hadvance
    obtain hcast | ⟨cast, r, -, hafter⟩ := bind_eq_error_iff.1 hafter
    · obtain ⟨hmisses, more, hmore, h⟩ :=
        readCast_error (h.advance (hpeek ▸ TokenKind.noConfusion)) hcast
      have hkind : p.current.kind = .rightParen := hpeek
      exact Or.inl ⟨rfl, hmisses, p.current :: more, by simp [hkind, hmore], by simpa using h⟩
    · cases hafter
  · have hafter := get_bind_eq_error hafter
    split at hafter
    · cases hafter
      exact Or.inr ⟨rfl, rfl⟩
    · cases hafter

/-- The faults of an item that is a suffix behind a front. -/
theorem exists_fault_suffixItem (resource : Resource) (isResource : Bool)
    (fault : Option ParseError) (aggregate : Except ParseError (Option Aggregate))
    (cast : Option String) :
    ∃ found : Option ParseError,
      (suffixItem resource isResource fault aggregate cast).errors = found.toList ∧
        ∀ error, found = some error →
          fault = some error ∨ aggregate = .error error ∨
            error = ⟨.misplacedModifiers, resource.span⟩ := by
  unfold suffixItem
  cases aggregate with
  | ok function =>
    cases isResource with
    | false => exact ⟨fault, errors_itemOr_eq fault rfl, fun error h => Or.inl h⟩
    | true =>
      refine ⟨_, errors_itemOr_eq _ rfl, fun error h => ?_⟩
      rcases Option.or_eq_some_iff.1 h with h | ⟨-, h⟩
      · exact Or.inl h
      · obtain ⟨-, ⟨⟩⟩ := Option.ite_none_right_eq_some.1 h
        exact Or.inr (Or.inr rfl)
  | error unknown =>
    have hfault (error : ParseError) (h : fault.or (some unknown) = some error) :
        fault = some error ∨ Except.error unknown = Except.error (α := Option Aggregate) error := by
      rcases Option.or_eq_some_iff.1 h with h | ⟨-, ⟨⟩⟩
      · exact Or.inl h
      · exact Or.inr rfl
    cases isResource with
    | false =>
      refine ⟨_, errors_itemOr_eq _ rfl, fun error h => ?_⟩
      exact (hfault error h).imp_right Or.inl
    | true =>
      refine ⟨_, errors_itemOr_eq _ rfl, fun error h => ?_⟩
      rcases Option.or_eq_some_iff.1 h with h | ⟨-, h⟩
      · exact (hfault error h).imp_right Or.inl
      · obtain ⟨-, ⟨⟩⟩ := Option.ite_none_right_eq_some.1 h
        exact Or.inr (Or.inr rfl)

theorem readSuffix_moves {resource : Resource} {isResource : Bool} {fault : Option ParseError}
    {item : SelectItem} (h : Moves start used p)
    (hread : readSuffix resource isResource fault p = .ok item q) :
    ∃ more function cast,
      more.map Token.kind = functionTokens function ++ castTokens cast ∧
      Moves start (used ++ more) q ∧
      ∃ found : Option ParseError, item.errors = found.toList ∧ ∀ error, found = some error →
        fault = some error ∨ error.IsRecoverable ∧
          ((∃ t ∈ more, error.span = t.span) ∨ error.span = resource.span.cover q.previous) := by
  obtain ⟨aggregate, r, haggregate, hafter⟩ := bind_eq_ok_iff.1 hread
  obtain ⟨more, function, hmore, h, hunknown⟩ := readAggregate_moves h haggregate
  obtain ⟨cast, r', hcast, hafter⟩ := bind_eq_ok_iff.1 hafter
  obtain ⟨more', hmore', h⟩ := readCast_moves h hcast
  obtain ⟨_, _, hget, hafter⟩ := bind_eq_ok_iff.1 hafter
  obtain ⟨rfl, rfl⟩ := get_eq_ok_iff.1 hget
  obtain ⟨rfl, rfl⟩ := pure_eq_ok_iff.1 hafter
  obtain ⟨found, herrors, hfound⟩ := exists_fault_suffixItem
    { resource with span := resource.span.cover r'.previous } isResource fault aggregate cast
  refine ⟨more ++ more', function, cast, by simp [hmore, hmore'], by simpa using h, found, herrors,
    fun error herror => ?_⟩
  rcases hfound error herror with hold | haggregate | rfl
  · exact Or.inl hold
  · obtain ⟨hrecoverable, t, ht, hspan⟩ := hunknown error haggregate
    exact Or.inr ⟨hrecoverable, Or.inl ⟨t, List.mem_append_left _ ht, hspan⟩⟩
  · exact Or.inr ⟨rfl, Or.inr rfl⟩

theorem readSuffix_error {resource : Resource} {isResource : Bool} {fault : Option ParseError}
    (h : Moves start used p) (hread : readSuffix resource isResource fault p = .error e q) :
    q.Misses e ∧ ∃ more function cast fill,
      more.map Token.kind ++ fill = functionTokens function ++ castTokens cast ∧
        (∀ k ∈ fill, k.IsRead) ∧ Moves start (used ++ more) q := by
  obtain haggregate | ⟨aggregate, r, haggregate, hafter⟩ := bind_eq_error_iff.1 hread
  · obtain ⟨hmisses, more, function, fill, hmore, hfill, h⟩ := readAggregate_error h haggregate
    exact ⟨hmisses, more, some function, none, fill, by simp [hmore, castTokens], hfill, h⟩
  obtain ⟨more, function, hmore, h, -⟩ := readAggregate_moves h haggregate
  obtain hcast | ⟨cast, r', -, hafter⟩ := bind_eq_error_iff.1 hafter
  · obtain ⟨hmisses, more', hmore', h⟩ := readCast_error h hcast
    exact ⟨hmisses, more ++ more', function, some "t", [.identifier "t"],
      by simp [hmore, hmore', castTokens], by simp [TokenKind.IsRead], by simpa using h⟩
  · cases hafter

/-! ### The head as a whole -/

/-- A head that took the tokens `used`, with the parser at `q`: an item that is no block, with the
fault in its place, or what stands before the list of a block, with its fault. -/
inductive Head.TakenFrom (used : List Token) (q : Parser) : Head → Prop
  | complete {item : SelectItem} {fault : Option ParseError}
      (htokens : IsWhole (used.map Token.kind)) (herrors : item.errors = fault.toList)
      (hfault : ∀ error, fault = some error → error.IsRecoverable ∧ Placed used error.span) :
      TakenFrom used q (.complete item)
  | opening {resource : Resource} {fault : Option ParseError} (f : Front)
      (htokens : used.map Token.kind = f.tokens ++ [.leftParen])
      (hcount : f.IsCount → q.peek ≠ .rightParen) (hdepth : q.depth < maxDepth)
      (hfault : ∀ error, fault = some error → error.IsRecoverable ∧ Placed used error.span) :
      TakenFrom used q (.opening resource fault)

/-- With some more tokens that a text can have, these are the tokens of an item that is no block. -/
def Completable (ks : List TokenKind) : Prop :=
  ∃ fill, IsWhole (ks ++ fill) ∧ ∀ k ∈ fill, k.IsRead

theorem readBody_moves {resource : Resource} {fault : Option ParseError} {hd : Head} {f : Front}
    (h : Moves start used p) (htokens : used.map Token.kind = f.tokens)
    (hname : resource.name = f.name)
    (hspan : resource.span = start.current.span)
    (hfault : ∀ error, fault = some error → error.IsRecoverable ∧ ∃ t ∈ used, error.span = t.span)
    (hread : readBody resource (!f.modifiers.isEmpty) fault p = .ok hd q) :
    ∃ more, Moves start (used ++ more) q ∧ hd.TakenFrom (used ++ more) q := by
  have hplaced (more : List Token) (error : ParseError) (herror : fault = some error) :
      error.IsRecoverable ∧ Placed (used ++ more) error.span := by
    obtain ⟨hrecoverable, t, ht, herror⟩ := hfault error herror
    exact ⟨hrecoverable, herror ▸ .of_mem (List.mem_append_left _ ht)⟩
  obtain ⟨found, r, hfound, hafter⟩ := bind_eq_ok_iff.1 hread
  obtain ⟨rfl, paren, hparen, h'⟩ | ⟨rfl, -, rfl⟩ := accept_moves h (by decide) hfound
  · have hcount : (resource.name = "count" && !!f.modifiers.isEmpty) = true ↔ f.IsCount := by
      simp [hname, Front.IsCount]
    rcases readOpening_moves h' hafter with ⟨hc, more, cast, item, hmore, h, rfl, herrors⟩ |
      ⟨rfl, rfl, hdepth, hc⟩
    · refine ⟨paren :: more, by simpa using h, .complete ?_ herrors (hplaced _)⟩
      rw [List.map_append, htokens, List.map_cons, hparen, hmore]
      exact .count (hcount.1 hc) cast
    · refine ⟨[paren], h', .opening f ?_ (fun hf => hc (hcount.2 hf)) hdepth (hplaced _)⟩
      simp [htokens, hparen]
  · obtain ⟨item, r, hsuffix, hafter⟩ := bind_eq_ok_iff.1 hafter
    obtain ⟨more, function, cast, hmore, h, found, herrors, hfaults⟩ := readSuffix_moves h hsuffix
    obtain ⟨rfl, rfl⟩ := pure_eq_ok_iff.1 hafter
    refine ⟨more, h, .complete ?_ herrors fun error herror => ?_⟩
    · rw [List.map_append, htokens, hmore]
      exact .suffix f function cast
    rcases hfaults error herror with hold | ⟨hrecoverable, ⟨t, ht, herror⟩ | hwhole⟩
    · exact hplaced more error hold
    · exact ⟨hrecoverable, herror ▸ .of_mem (List.mem_append_right _ ht)⟩
    · -- Misplaced modifiers make a fault of the whole item.
      have hne : used ++ more ≠ [] := by
        intro hnil
        have hnil : f.tokens = [] := by rw [← htokens, (List.append_eq_nil_iff.1 hnil).1]; rfl
        simp [Front.tokens] at hnil
      obtain ⟨last, hlast, hprevious⟩ := h.exists_previous hne
      refine ⟨hrecoverable, Or.inr ⟨_, last, h.head?_used hne, hlast, ?_⟩⟩
      rw [hwhole, hspan, hprevious]

theorem readBody_error {resource : Resource} {fault : Option ParseError} {f : Front}
    (h : Moves start used p) (htokens : used.map Token.kind = f.tokens)
    (hname : resource.name = f.name)
    (hread : readBody resource (!f.modifiers.isEmpty) fault p = .error e q) :
    ∃ more, Moves start (used ++ more) q ∧
      (q.Misses e ∧ Completable ((used ++ more).map Token.kind) ∨
        e = ⟨.tooDeep, q.previous⟩ ∧ used ++ more ≠ []) := by
  obtain ⟨found, r, hfound, hafter⟩ := accept_bind_eq_error hread
  obtain ⟨rfl, paren, hparen, h'⟩ | ⟨rfl, -, rfl⟩ := accept_moves h (by decide) hfound
  · have hcount : (resource.name = "count" && !!f.modifiers.isEmpty) = true ↔ f.IsCount := by
      simp [hname, Front.IsCount]
    rcases readOpening_error h' hafter with ⟨hc, hmisses, more, hmore, h⟩ | ⟨rfl, hdeep⟩
    · refine ⟨paren :: more, by simpa using h,
        Or.inl ⟨hmisses, [.identifier "t"], ?_, by simp [TokenKind.IsRead]⟩⟩
      rw [List.map_append, htokens, List.map_cons, hparen, hmore, List.append_assoc]
      exact .count (hcount.1 hc) (some "t")
    · exact ⟨[paren], h', Or.inr ⟨hdeep, by simp⟩⟩
  · obtain hsuffix | ⟨item, r, -, hafter⟩ := bind_eq_error_iff.1 hafter
    · obtain ⟨hmisses, more, function, cast, fill, hmore, hfill, h⟩ := readSuffix_error h hsuffix
      refine ⟨more, h, Or.inl ⟨hmisses, fill, ?_, hfill⟩⟩
      rw [List.map_append, htokens, List.append_assoc, hmore]
      exact .suffix f function cast
    · cases hafter

/-- A colon that comes first, with no alias before it. -/
theorem accept_colon_moves {colon : Bool} (h : Moves start used p)
    (hread : accept .colon p = .ok colon q) :
    ∃ more, more.map Token.kind = (if colon then [.colon] else []) ∧
      Moves start (used ++ more) q := by
  obtain ⟨rfl, t, ht, h⟩ | ⟨rfl, -, rfl⟩ := accept_moves h (by decide) hread
  · exact ⟨[t], by simp [ht], h⟩
  · exact ⟨[], rfl, by simpa using h⟩

/-- What the head of an item takes, and where the fault lies that it found. -/
theorem head_moves (heof : p.eof.kind = .eof) {hd : Head} (hread : head p = .ok hd q) :
    ∃ used, Moves p used q ∧ hd.TakenFrom used q := by
  obtain ⟨_, _, hget, hafter⟩ := bind_eq_ok_iff.1 hread
  obtain ⟨rfl, rfl⟩ := get_eq_ok_iff.1 hget
  obtain ⟨star, r, hstar, hafter⟩ := bind_eq_ok_iff.1 hafter
  obtain ⟨rfl, t, ht, h⟩ | ⟨rfl, -, rfl⟩ := accept_moves (.refl heof) (by decide) hstar
  · obtain ⟨rfl, rfl⟩ := pure_eq_ok_iff.1 hafter
    have hclean (span : Span) : (SelectItem.wildcard span).errors = Option.toList none := rfl
    refine ⟨[t], h, .complete ?_ (hclean _) (by rintro _ ⟨⟩)⟩
    rw [List.map_singleton, ht]
    exact .star
  obtain ⟨colon, r, hcolon, hafter⟩ := bind_eq_ok_iff.1 hafter
  obtain ⟨front, hfront, h⟩ := accept_colon_moves (.refl heof) hcolon
  obtain ⟨⟨label, name⟩, r', hname, hafter⟩ := bind_eq_ok_iff.1 hafter
  obtain ⟨named, hnamed, h⟩ := readName_moves h hname
  obtain ⟨modifiers, r'', hmodifiers, hafter⟩ := bind_eq_ok_iff.1 hafter
  obtain ⟨marked, hmarked, hspans, h⟩ := readModifiers_moves h hmodifiers
  let f : Front := ⟨colon, label, name, modifiers.map Prod.fst⟩
  have htokens : (front ++ named ++ marked).map Token.kind = f.tokens := by
    simp [hfront, hnamed, hmarked, f, Front.tokens]
  have hne : front ++ named ++ marked ≠ [] := by
    intro hnil
    rw [hnil] at htokens
    simp [Front.tokens] at htokens
  have hempty : (!modifiers.isEmpty) = !f.modifiers.isEmpty := by simp [f]
  rw [List.nil_append] at h
  rw [hempty] at hafter
  -- A missing alias lies on the first token and a contradiction on a modifier.
  have hfault : ∀ error,
      (if colon = true then some ⟨.emptyAlias, p.current.span⟩ else none).or
          (Modifiers.ofList modifiers).conflict = some error →
        error.IsRecoverable ∧ ∃ t ∈ front ++ named ++ marked, error.span = t.span := by
    intro error herror
    refine ⟨fault_isRecoverable error herror, ?_⟩
    rcases Option.or_eq_some_iff.1 herror with hcolon | ⟨-, hconflict⟩
    · obtain ⟨-, ⟨⟩⟩ := Option.ite_none_right_eq_some.1 hcolon
      exact ⟨_, List.mem_of_mem_head? (h.head?_used hne), rfl⟩
    · obtain ⟨m, hm, hspan⟩ := Modifiers.conflict_ofList_span hconflict
      obtain ⟨t, ht, hm⟩ := hspans m hm
      exact ⟨t, List.mem_append_right _ ht, hspan.trans hm⟩
  obtain ⟨more, h, htaken⟩ := readBody_moves h htokens rfl rfl hfault hafter
  exact ⟨_, h, htaken⟩

/-- Where the head of an item fails, it stands before a token that no item goes on with, behind
tokens that some item does begin with; or behind the parenthesis of a block that is too deep. -/
theorem head_error (heof : p.eof.kind = .eof) (hread : head p = .error e q) :
    ∃ used, Moves p used q ∧
      (q.Misses e ∧ Completable (used.map Token.kind) ∨
        e = ⟨.tooDeep, q.previous⟩ ∧ used ≠ []) := by
  have hafter := get_bind_eq_error hread
  obtain ⟨star, r, hstar, hafter⟩ := accept_bind_eq_error hafter
  obtain ⟨rfl, -, -, -⟩ | ⟨rfl, -, rfl⟩ := accept_moves (.refl heof) (by decide) hstar
  · cases hafter
  obtain ⟨colon, r, hcolon, hafter⟩ := accept_bind_eq_error hafter
  obtain ⟨front, hfront, h⟩ := accept_colon_moves (.refl heof) hcolon
  obtain hname | ⟨⟨label, name⟩, r', hname, hafter⟩ := bind_eq_error_iff.1 hafter
  · obtain ⟨hmisses, more, label, hmore, h⟩ := readName_error h hname
    refine ⟨_, h, Or.inl ⟨hmisses, [.identifier "n"], ?_, by simp [TokenKind.IsRead]⟩⟩
    simpa [hfront, hmore, Front.tokens, functionTokens, castTokens] using
      IsWhole.suffix ⟨colon, label, "n", []⟩ none none
  obtain ⟨named, hnamed, h⟩ := readName_moves h hname
  obtain hmodifiers | ⟨modifiers, r'', hmodifiers, hafter⟩ := bind_eq_error_iff.1 hafter
  · obtain ⟨hmisses, more, names, hmore, h⟩ := readModifiers_error h hmodifiers
    refine ⟨_, h, Or.inl ⟨hmisses, [.identifier "n"], ?_, by simp [TokenKind.IsRead]⟩⟩
    simpa [hfront, hnamed, hmore, Front.tokens, functionTokens, castTokens, modifiersTokens,
      modifierTokens] using
      IsWhole.suffix ⟨colon, label, name, names ++ ["n"]⟩ none none
  obtain ⟨marked, hmarked, -, h⟩ := readModifiers_moves h hmodifiers
  let f : Front := ⟨colon, label, name, modifiers.map Prod.fst⟩
  have htokens : (front ++ named ++ marked).map Token.kind = f.tokens := by
    simp [hfront, hnamed, hmarked, f, Front.tokens]
  have hempty : (!modifiers.isEmpty) = !f.modifiers.isEmpty := by simp [f]
  rw [List.nil_append] at h
  rw [hempty] at hafter
  obtain ⟨more, h, hfails⟩ := readBody_error h htokens rfl hafter
  exact ⟨_, h, hfails⟩

end Parser

end EmbedQuery
