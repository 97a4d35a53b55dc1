import EmbedQuery.Proofs.Query.Builder
import EmbedQuery.Proofs.Query.Completion

/-!
# Where items lie

An item that is read is read from some tokens that stand together: those of its head, and for a
block those of its list and the parenthesis that closes it (`LiesOn`, `LiesOnList`). The span of an
item goes from the first of its tokens to the last, and the items inside it lie on some of them
(`LiesOn.exists_part`).

An item without an error owes nothing to what stands around its tokens: wherever they stand, before
something that ends an item and not too deep, they are read as the very same item
(`LiesOn.readsAs`). For the head of an item this is shown on bare token kinds, where the grammar
decides; a head has one span, which the first and the last token give (`head_complete_span`,
`head_opening_span`), so the spans come back.
-/

namespace EmbedQuery

/-- The span of an item, or of the error in its place. -/
def SelectItem.span : SelectItem → Span
  | .wildcard span | .count _ _ span => span
  | .column c => c.span
  | .bare r | .block r _ => r.span
  | .invalid e _ => e.span

/-- The span goes from the first of the tokens to the last. -/
def Tokens.Cover (ts : List Token) (s : Span) : Prop :=
  ∃ first last, ts.head? = some first ∧ ts.getLast? = some last ∧ s = first.span.cover last.span

theorem Tokens.Cover.unique {ts : List Token} {s t : Span} (h : Cover ts s) (h' : Cover ts t) :
    s = t := by
  obtain ⟨first, last, hfirst, hlast, rfl⟩ := h
  obtain ⟨first', last', hfirst', hlast', rfl⟩ := h'
  obtain rfl := Option.some.inj (hfirst.symm.trans hfirst')
  obtain rfl := Option.some.inj (hlast.symm.trans hlast')
  rfl

/-- Without spans, resources differ in one span. -/
theorem Resource.eq_of_eraseSpans {r s : Resource}
    (h : r.mapSpans (fun _ => {}) = s.mapSpans fun _ => {}) (hspan : r.span = s.span) : r = s := by
  obtain ⟨name, label, hint, join, span⟩ := r
  obtain ⟨name', label', hint', join', span'⟩ := s
  obtain ⟨rfl, rfl, rfl, rfl, -⟩ := Resource.mk.inj h
  obtain rfl : span = span' := hspan
  rfl

/-- Without spans, items that are no blocks and no errors differ in one span. -/
theorem SelectItem.eq_of_eraseSpans {i j : SelectItem} (hnesting : i.nesting = 0)
    (hclean : i.errors = []) (h : i.mapSpans (fun _ => {}) = j.mapSpans fun _ => {})
    (hspan : i.span = j.span) : i = j := by
  cases i with
  | block => cases hnesting
  | invalid => cases hclean
  | wildcard span | count label cast span =>
    cases j <;> simp_all [SelectItem.mapSpans, SelectItem.span]
  | column c =>
    cases j with
    | column c' =>
      obtain ⟨name, label, cast, aggregate, span⟩ := c
      obtain ⟨name', label', cast', aggregate', span'⟩ := c'
      obtain ⟨rfl, rfl, rfl, rfl, -⟩ := ColumnRef.mk.inj (SelectItem.column.inj h)
      obtain rfl : span = span' := hspan
      rfl
    | _ => cases h
  | bare r =>
    cases j with
    | bare s => rw [Resource.eq_of_eraseSpans (SelectItem.bare.inj h) hspan]
    | _ => cases h

namespace Parser

variable {p q : Parser} {ts us rest : List Token} {i : SelectItem} {resource : Resource}
  {fault : Option ParseError}

/-! ### The span of a head -/

theorem span_suffixItem {isResource : Bool} {aggregate : Except ParseError (Option Aggregate)}
    {cast : Option String} (h : (suffixItem resource isResource fault aggregate cast).errors = []) :
    (suffixItem resource isResource fault aggregate cast).span = resource.span := by
  obtain ⟨-, ⟨-, -, -, hitem⟩ | ⟨-, function, -, hitem⟩⟩ := suffixItem_clean h
  · rw [hitem]
    rfl
  · rw [hitem]
    rfl

theorem readOpening_span {isCount : Bool} {hd : Head}
    (h : readOpening resource isCount fault p = .ok hd q) :
    (∀ i, hd = .complete i → i.errors = [] → i.span = resource.span.cover q.previous) ∧
      ∀ r fault, hd = .opening r fault → r.span = resource.span := by
  obtain ⟨_, _, hget, h⟩ := bind_eq_ok_iff.1 h
  obtain ⟨rfl, rfl⟩ := get_eq_ok_iff.1 hget
  split at h
  · obtain ⟨_, _, -, h⟩ := bind_eq_ok_iff.1 h
    obtain ⟨cast, _, -, h⟩ := bind_eq_ok_iff.1 h
    obtain ⟨_, _, hget, h⟩ := bind_eq_ok_iff.1 h
    obtain ⟨rfl, rfl⟩ := get_eq_ok_iff.1 hget
    obtain ⟨rfl, rfl⟩ := pure_eq_ok_iff.1 h
    refine ⟨?_, by simp⟩
    rintro _ ⟨⟩ hclean
    obtain ⟨rfl, -⟩ := errors_itemOr_eq_nil_iff.1 hclean
    rfl
  · obtain ⟨_, _, hget, h⟩ := bind_eq_ok_iff.1 h
    obtain ⟨rfl, rfl⟩ := get_eq_ok_iff.1 hget
    split at h
    · cases h
    · obtain ⟨rfl, -⟩ := pure_eq_ok_iff.1 h
      refine ⟨by simp, ?_⟩
      rintro _ _ ⟨⟩
      rfl

/-- The span of a head goes from the token it began with to the one it ended with, or has the first
of the two only, when a list follows. -/
theorem head_span {hd : Head} (h : head p = .ok hd q) :
    (∀ i, hd = .complete i → i.errors = [] → i.span = p.current.span.cover q.previous) ∧
      ∀ resource fault, hd = .opening resource fault → resource.span = p.current.span := by
  obtain ⟨_, _, hget, h⟩ := bind_eq_ok_iff.1 h
  obtain ⟨rfl, rfl⟩ := get_eq_ok_iff.1 hget
  obtain ⟨star, r, hstar, h⟩ := bind_eq_ok_iff.1 h
  obtain ⟨rfl, -, rfl⟩ | ⟨rfl, -, rfl⟩ := accept_cases hstar
  · obtain ⟨rfl, rfl⟩ := pure_eq_ok_iff.1 h
    refine ⟨?_, by simp⟩
    rintro _ ⟨⟩ -
    simp [SelectItem.span, Span.cover, advance]
  · obtain ⟨colon, _, -, h⟩ := bind_eq_ok_iff.1 h
    obtain ⟨⟨label, name⟩, _, -, h⟩ := bind_eq_ok_iff.1 h
    obtain ⟨modifiers, _, -, h⟩ := bind_eq_ok_iff.1 h
    obtain ⟨paren, _, -, h⟩ := bind_eq_ok_iff.1 h
    cases paren with
    | true => exact readOpening_span h
    | false =>
      obtain ⟨item, _, hsuffix, h⟩ := bind_eq_ok_iff.1 h
      obtain ⟨rfl, rfl⟩ := pure_eq_ok_iff.1 h
      obtain ⟨aggregate, _, -, h⟩ := bind_eq_ok_iff.1 hsuffix
      obtain ⟨cast, _, -, h⟩ := bind_eq_ok_iff.1 h
      obtain ⟨_, _, hget, h⟩ := bind_eq_ok_iff.1 h
      obtain ⟨rfl, rfl⟩ := get_eq_ok_iff.1 hget
      obtain ⟨rfl, rfl⟩ := pure_eq_ok_iff.1 h
      refine ⟨?_, by simp⟩
      rintro _ ⟨⟩ hclean
      exact span_suffixItem hclean

/-! ### Heads anywhere -/

/-- The parser goes on with the tokens `ts`, and `rest` stands behind them. -/
structure Faces (p : Parser) (ts rest : List Token) : Prop where
  rest : p.rest = ts ++ rest
  eof : p.eof.kind = .eof
  halted : p.halted = false

theorem Moves.used_eq (h : Moves p us q) (hrest : p.rest = ts ++ rest)
    (hlength : q.rest.length = rest.length) : us = ts ∧ q.rest = rest :=
  List.append_inj' (h.rest.symm.trans hrest) hlength

/-- A head that is read on bare token kinds is read on the tokens, with their spans. -/
theorem Faces.head_eq {hd : Head} (h : p.Faces ts rest)
    (hhead : head (ofKinds (ts.map Token.kind ++ rest.map Token.kind) p.depth) =
      .ok hd (ofKinds (rest.map Token.kind) p.depth)) :
    ∃ hd' q, head p = .ok hd' q ∧ hd'.mapSpans (fun _ => {}) = hd ∧ Moves p ts q ∧
      q.rest = rest ∧ q.halted = false := by
  have hbare : p.mapSpans (fun _ => {}) =
      ofKinds (ts.map Token.kind ++ rest.map Token.kind) p.depth := by
    rw [mapSpans_eq_ofKinds h.eof, h.halted, h.rest, List.map_append]
    rfl
  have hfollows := head_follows Span.joining_const_default p
  rw [hbare, hhead] at hfollows
  match hread : head p with
  | .error e q =>
    rw [hread] at hfollows
    cases hfollows
  | .ok hd' q =>
    rw [hread] at hfollows
    obtain ⟨hhd, hq⟩ := EStateM.Result.ok.inj hfollows
    obtain ⟨used, hmoves, -⟩ := head_moves h.eof hread
    have hlength : q.rest.length = rest.length := by
      have hkinds := congrArg (fun r => r.rest.length) hq
      simpa [mapSpans, ofKinds] using hkinds.symm
    obtain ⟨rfl, hrest⟩ := hmoves.used_eq h.rest hlength
    exact ⟨hd', q, rfl, hhd.symm, hmoves, hrest, ((head_reads p).halted_eq hread).trans h.halted⟩

theorem Moves.cover (h : Moves p us q) (hne : us ≠ []) :
    Tokens.Cover us (p.current.span.cover q.previous) := by
  obtain ⟨last, hlast, hprevious⟩ := h.exists_previous hne
  exact ⟨_, last, h.head?_used hne, hlast, by rw [hprevious]⟩

/-- What comes next stands at the head of the tokens that are left. -/
theorem head?_of_peek {k : TokenKind} (heof : p.eof.kind = .eof) (hk : k ≠ .eof)
    (h : p.peek = k) : (p.rest.map Token.kind).head? = some k := by
  subst h
  obtain ⟨t, more, hcons⟩ := List.exists_cons_of_ne_nil (rest_ne_nil heof hk)
  rw [peek, current, hcons]
  rfl

/-- The head of an item without a fault takes some tokens, and it is what the grammar says of their
kinds. -/
theorem head_readsHead {hd : Head} (heof : p.eof.kind = .eof) (hp : p.halted = false)
    (h : head p = .ok hd q) (hclean : hd.IsClean) :
    ∃ used, Moves p used q ∧ used ≠ [] ∧
      ReadsHead p.depth (used.map Token.kind ++ q.rest.map Token.kind)
        (hd.mapSpans fun _ => {}) (q.rest.map Token.kind) := by
  obtain ⟨used, hmoves, -⟩ := head_moves heof h
  have hne : used ≠ [] := by
    rintro rfl
    have hlt := head_consumes heof h
    rw [hmoves.rest, List.nil_append] at hlt
    exact Nat.lt_irrefl _ hlt
  have hbare : p.mapSpans (fun _ => {}) =
      ofKinds (used.map Token.kind ++ q.rest.map Token.kind) p.depth := by
    rw [mapSpans_eq_ofKinds heof, hp, hmoves.rest, List.map_append]
    rfl
  have hfollows := head_follows Span.joining_const_default p
  rw [hbare, h] at hfollows
  have hclean' : (hd.mapSpans fun _ => {}).IsClean := by
    cases hd with
    | complete i =>
      show (i.mapSpans _).errors = []
      rw [SelectItem.errors_mapSpans, show i.errors = [] from hclean]
      rfl
    | opening resource fault =>
      show fault.map _ = none
      rw [show fault = none from hclean]
      rfl
  obtain ⟨rest, hreads, hq⟩ := head_clean hfollows hclean'
  have hrest : q.rest.map Token.kind = rest := by
    have hkinds := congrArg (fun r => r.rest.map Token.kind) hq
    simpa [mapSpans, ofKinds, Function.comp_def, Token.mapSpans] using hkinds
  exact ⟨used, hmoves, hne, hrest ▸ hreads⟩

/-- Wherever the tokens stand before something that ends an item, they are read as the head `i`. -/
def ReadsWhole (ts : List Token) (i : SelectItem) : Prop :=
  ∀ p rest, Faces p ts rest → EndsItem (rest.map Token.kind) →
    ∃ q, head p = .ok (.complete i) q ∧ Moves p ts q ∧ q.rest = rest ∧ q.halted = false

/-- Wherever the tokens stand, they open a block of this resource, if it is not too deep. Only where
`mayClose` holds may it be closed at once: this can be the number of rows else. -/
def Opens (ts : List Token) (resource : Resource) (mayClose : Prop) : Prop :=
  ∀ p rest, Faces p ts rest →
    ((rest.map Token.kind).head? = some .rightParen → mayClose) → p.depth < maxDepth →
      ∃ q, head p = .ok (.opening resource none) q ∧ Moves p ts q ∧ q.rest = rest ∧
        q.halted = false

theorem Opens.imp {mayClose mayClose' : Prop} (h : Opens ts resource mayClose)
    (himp : mayClose' → mayClose) : Opens ts resource mayClose' :=
  fun p rest hfaces hclose hdepth => h p rest hfaces (fun hrest => himp (hclose hrest)) hdepth

theorem ReadsHead.complete_again {d : Nat} {ks more : List TokenKind}
    (h : ReadsHead d ks (.complete i) more) :
    ∃ used, ks = used ++ more ∧ ∀ rest d, EndsItem rest →
      head (ofKinds (used ++ rest) d) = .ok (.complete i) (ofKinds rest d) := by
  cases h with
  | complete hitem hnesting =>
    exact ⟨_, rfl, fun rest d hrest => head_complete hitem hnesting hrest⟩

theorem ReadsHead.opening_again {d : Nat} {ks more : List TokenKind}
    (h : ReadsHead d ks (.opening resource fault) more) :
    ∃ used, ks = used ++ more ∧ ∀ rest d,
      (rest.head? = some .rightParen → more.head? = some .rightParen) → d < maxDepth →
        head (ofKinds (used ++ rest) d) = .ok (.opening resource fault) (ofKinds rest d) := by
  cases h with
  | @opening label name names join hint _ hmean hcount hdepth =>
    refine ⟨aliasTokens label ++ .identifier name :: (modifiersTokens names ++ [.leftParen]),
      by simp, fun rest d hclose hdepth => ?_⟩
    have hcount' : ¬(name = "count" ∧ names = [] ∧ rest.head? = some .rightParen) :=
      fun ⟨hname, hnames, hparen⟩ => hcount ⟨hname, hnames, hclose hparen⟩
    simpa using head_opening label name hmean rest hcount' hdepth

/-- A whole item without an error is read like that anywhere. -/
theorem readsWhole_of_head (heof : p.eof.kind = .eof) (hp : p.halted = false)
    (h : head p = .ok (.complete i) q) (hclean : i.errors = []) :
    ∃ used, Moves p used q ∧ ReadsWhole used i ∧ Tokens.Cover used i.span := by
  obtain ⟨used, hmoves, hne, hreads⟩ := head_readsHead heof hp h hclean
  have hspan := (head_span h).1 i rfl hclean
  obtain ⟨kinds, hkinds, hagain⟩ := hreads.complete_again
  obtain rfl : used.map Token.kind = kinds := List.append_cancel_right hkinds
  refine ⟨used, hmoves, fun p' rest hfaces hrest => ?_, hspan ▸ hmoves.cover hne⟩
  obtain ⟨hd', q', hread, hsame, hmoves', hrest', hhalted⟩ :=
    hfaces.head_eq (hagain _ _ hrest)
  cases hd' with
  | opening => cases hsame
  | complete i' =>
    have hsame : i'.mapSpans (fun _ => {}) = i.mapSpans fun _ => {} := Head.complete.inj hsame
    have hclean' : i'.errors = [] := by
      have herrors := congrArg SelectItem.errors hsame
      rwa [SelectItem.errors_mapSpans, SelectItem.errors_mapSpans, hclean, List.map_nil,
        List.map_eq_nil_iff] at herrors
    have hspan' : i'.span = i.span := by
      rw [(head_span hread).1 i' rfl hclean', hspan]
      exact (hmoves'.cover hne).unique (hmoves.cover hne)
    obtain rfl := SelectItem.eq_of_eraseSpans (nesting_of_head hread) hclean' hsame hspan'
    exact ⟨q', hread, hmoves', hrest', hhalted⟩

/-- What opens a block without a fault does so anywhere. -/
theorem opens_of_head (heof : p.eof.kind = .eof) (hp : p.halted = false)
    (h : head p = .ok (.opening resource none) q) :
    ∃ used, Moves p used q ∧ used ≠ [] ∧ Opens used resource (q.peek = .rightParen) := by
  obtain ⟨used, hmoves, hne, hreads⟩ := head_readsHead heof hp h rfl
  obtain ⟨kinds, hkinds, hagain⟩ := hreads.opening_again
  obtain rfl : used.map Token.kind = kinds := List.append_cancel_right hkinds
  refine ⟨used, hmoves, hne, fun p' rest hfaces hclose hdepth => ?_⟩
  have hparen (hrest : (rest.map Token.kind).head? = some .rightParen) :
      (q.rest.map Token.kind).head? = some .rightParen :=
    head?_of_peek hmoves.isEof (by decide) (hclose hrest)
  obtain ⟨hd, q', hread, hsame, hmoves', hrest', hhalted⟩ :=
    hfaces.head_eq (hagain _ _ hparen hdepth)
  cases hd with
  | complete => cases hsame
  | opening resource' fault =>
    obtain ⟨hresource, hfault⟩ := Head.opening.inj hsame
    obtain rfl : fault = none := by simpa using hfault
    have hspan : resource'.span = resource.span := by
      rw [(head_span hread).2 _ _ rfl, (head_span h).2 _ _ rfl,
        Option.some.inj ((hmoves'.head?_used hne).symm.trans (hmoves.head?_used hne))]
    obtain rfl := Resource.eq_of_eraseSpans hresource hspan
    exact ⟨q', hread, hmoves', hrest', hhalted⟩

end Parser

/-! ### Items and lists -/

open EmbedQuery.Parser

/-- What closes a block: a parenthesis, or nothing where the reading stopped in its last item. -/
def Closes (closing : List Token) (items : List SelectItem) : Prop :=
  (∃ t, closing = [t] ∧ t.kind = .rightParen) ∨
    closing = [] ∧ ∃ last, items.getLast? = some last ∧ last.errors ≠ []

mutual

/-- The item was read from the tokens. -/
inductive LiesOn : List Token → SelectItem → Prop
  | invalid (ts : List Token) (error : ParseError) (discarded : List SelectItem) :
      LiesOn ts (.invalid error discarded)
  | whole {ts : List Token} {i : SelectItem} (hreads : ReadsWhole ts i)
      (hspan : Tokens.Cover ts i.span) (hclean : i.errors = []) (hnesting : i.nesting = 0) :
      LiesOn ts i
  | block {opening inner closing : List Token} {resource : Resource} {items : List SelectItem}
      {s : Span} (hopens : Opens opening resource (items = [])) (hne : opening ≠ [])
      (hlist : LiesOnList inner items) (hcloses : Closes closing items)
      (hspan : Tokens.Cover (opening ++ (inner ++ closing)) s) :
      LiesOn (opening ++ (inner ++ closing)) (.block { resource with span := s } items)

/-- The items of the list were read from the tokens, with commas between them. -/
inductive LiesOnList : List Token → List SelectItem → Prop
  | nil : LiesOnList [] []
  | single {ts : List Token} {i : SelectItem} (hitem : LiesOn ts i) : LiesOnList ts [i]
  | cons {ts us : List Token} {comma : Token} {i next : SelectItem} {items : List SelectItem}
      (hitem : LiesOn ts i) (hcomma : comma.kind = .comma)
      (hmore : LiesOnList us (next :: items)) : LiesOnList (ts ++ comma :: us) (i :: next :: items)

end

namespace Parser

variable {p q s : Parser} {used : List Token}

/-! ### What was read lies on tokens -/

/-- What is read behind the list of a block: a parenthesis, or nothing. -/
theorem close_liesOn (resource : Resource) (fault : Option ParseError) (items : List SelectItem)
    (h : Moves p used s) :
    ∃ closing, Moves p (used ++ closing) (close resource fault items s).2 ∧
      ((∃ e discarded, (close resource fault items s).1 = .invalid e discarded) ∨
        fault = none ∧ (close resource fault items s).1 = .block { resource with
            span := resource.span.cover (close resource fault items s).2.previous } items ∧
          ((∃ t, closing = [t] ∧ t.kind = .rightParen) ∨ closing = [] ∧ s.halted = true)) := by
  have hfaulty (item : SelectItem) (e : ParseError) :
      ∃ e' discarded, itemOr (some e) item = .invalid e' discarded := ⟨e, [item], rfl⟩
  unfold close
  split
  · next hhalted =>
    refine ⟨[], by rwa [List.append_nil], ?_⟩
    cases fault with
    | none => exact Or.inr ⟨rfl, rfl, Or.inr ⟨rfl, hhalted⟩⟩
    | some e => exact Or.inl (hfaulty _ e)
  split
  · next hparen =>
    refine ⟨[s.current], h.advance (hparen ▸ TokenKind.noConfusion), ?_⟩
    cases fault with
    | none => exact Or.inr ⟨rfl, rfl, Or.inl ⟨_, rfl, hparen⟩⟩
    | some e => exact Or.inl (hfaulty _ e)
  · refine ⟨[], ?_, Or.inl ⟨_, _, rfl⟩⟩
    rw [List.append_nil]
    exact ⟨h.rest, h.eof, h.isEof, h.depth, h.previous⟩

/-- The head of an item that is no block has no error or is one. -/
theorem clean_or_invalid_of_head {i : SelectItem} (h : head p = .ok (.complete i) q) :
    i.errors = [] ∨ ∃ e discarded, i = .invalid e discarded := by
  have hnesting := nesting_of_head h
  cases i with
  | block => cases hnesting
  | invalid e discarded => exact Or.inr ⟨e, discarded, rfl⟩
  | _ => exact Or.inl rfl

/-- The list behind a head that opens a block lies on its tokens; it is empty where the block is
closed at once, and where its reading halts its last item has an error. -/
theorem opening_liesOn {resource : Resource} {fault : Option ParseError}
    (hlist : ∀ r, r.rest.length < p.rest.length → r.eof.kind = .eof → r.halted = false →
      (readList r).1 ≠ [] ∧ ∃ used, Moves r used (readList r).2 ∧ LiesOnList used (readList r).1)
    (heof : p.eof.kind = .eof) (hp : p.halted = false)
    (hhead : head p = .ok (.opening resource fault) q) :
    ∃ items s inner, item readList p = close resource fault items s ∧ Moves q inner s ∧
      LiesOnList inner items ∧ (items = [] → q.peek = .rightParen) ∧
      (s.halted = true → ∃ last, items.getLast? = some last ∧ last.errors ≠ []) := by
  obtain ⟨used, hmoves, -⟩ := head_moves heof hhead
  have hq : q.halted = false := ((head_reads p).halted_eq hhead).trans hp
  by_cases hparen : q.peek = .rightParen
  · refine ⟨[], q, [], item_empty hhead hparen, .refl hmoves.isEof, .nil, fun _ => hparen, ?_⟩
    simp [hq]
  · have hlt : q.rest.length < p.rest.length := head_consumes heof hhead
    obtain ⟨hitems, inner, hinner, hlies⟩ := hlist q.enter hlt hmoves.isEof hq
    refine ⟨_, _, inner, item_block hhead hparen, hinner.leave, hlies,
      fun hnil => absurd hnil hitems, fun hhalted => ?_⟩
    obtain ⟨last, hlast, e, hidden, -, hstops⟩ :=
      itemsFrom_stopped (q.enter.rest.length + 1) (p := q.enter) hq hhalted
    obtain ⟨e', herrors, -⟩ := hstops.getLast?_errors
    refine ⟨last, hlast, fun hnil => ?_⟩
    rw [hnil] at herrors
    cases herrors

/-- An item lies on the tokens it was read from. -/
theorem item_liesOn
    (hlist : ∀ r, r.rest.length < p.rest.length → r.eof.kind = .eof → r.halted = false →
      (readList r).1 ≠ [] ∧ ∃ used, Moves r used (readList r).2 ∧ LiesOnList used (readList r).1)
    (heof : p.eof.kind = .eof) (hp : p.halted = false) :
    ∃ used, Moves p used (item readList p).2 ∧ LiesOn used (item readList p).1 := by
  match hhead : head p with
  | .error e q =>
    obtain ⟨used, hmoves, -⟩ := head_error heof hhead
    rw [item_error hhead]
    exact ⟨used, ⟨hmoves.rest, hmoves.eof, hmoves.isEof, hmoves.depth, hmoves.previous⟩,
      .invalid _ _ _⟩
  | .ok (.complete i) q =>
    rw [item_complete hhead]
    obtain hclean | ⟨e, discarded, rfl⟩ := clean_or_invalid_of_head hhead
    · obtain ⟨used, hmoves, hreads, hspan⟩ := readsWhole_of_head heof hp hhead hclean
      exact ⟨used, hmoves, .whole hreads hspan hclean (nesting_of_head hhead)⟩
    · obtain ⟨used, hmoves, -⟩ := head_moves heof hhead
      exact ⟨used, hmoves, .invalid _ _ _⟩
  | .ok (.opening resource fault) q =>
    obtain ⟨used, hmoves, -⟩ := head_moves heof hhead
    obtain ⟨items, s, inner, hread, hinner, hlies, hempty, hstopped⟩ :=
      opening_liesOn hlist heof hp hhead
    obtain ⟨closing, hclosing, ⟨e, discarded, hinvalid⟩ | ⟨rfl, hblock, hcloses⟩⟩ :=
      close_liesOn resource fault items (hmoves.trans hinner)
    · rw [hread, hinvalid]
      exact ⟨_, hclosing, .invalid _ _ _⟩
    · obtain ⟨used', hmoves', hne, hopens⟩ := opens_of_head heof hp hhead
      obtain ⟨rfl, -⟩ := hmoves'.used_eq hmoves.rest rfl
      rw [hread, hblock]
      rw [List.append_assoc] at hclosing
      refine ⟨_, hclosing, .block (hopens.imp hempty) hne hlies ?_ ?_⟩
      · obtain hparen | ⟨hnil, hhalted⟩ := hcloses
        · exact Or.inl hparen
        · exact Or.inr ⟨hnil, hstopped hhalted⟩
      · rw [(head_span hhead).2 _ _ rfl]
        exact hclosing.cover (by simp [hne])

/-- A list lies on the tokens it was read from. -/
theorem readList_liesOn (heof : p.eof.kind = .eof) (hp : p.halted = false) :
    (readList p).1 ≠ [] ∧
      ∃ used, Moves p used (readList p).2 ∧ LiesOnList used (readList p).1 := by
  induction hn : p.rest.length using Nat.strongRecOn generalizing p with
  | ind n ih =>
    subst hn
    obtain ⟨used, hmoves, hlies⟩ :=
      item_liesOn (fun r hlt hr hgoes => ih _ hlt hr hgoes rfl) heof hp
    rcases hread : item readList p with ⟨i, q⟩
    rw [hread] at hmoves hlies
    by_cases hend : q.halted = true ∨ q.peek ≠ .comma
    · rw [readList_last heof hread hend]
      exact ⟨List.cons_ne_nil _ _, used, hmoves, .single hlies⟩
    · simp only [not_or, ne_eq, Decidable.not_not, Bool.not_eq_true] at hend
      obtain ⟨hq, hcomma⟩ := hend
      have hmoves' := hmoves.advance (hcomma ▸ TokenKind.noConfusion)
      have hlt := hmoves.length_advance_lt (hcomma ▸ TokenKind.noConfusion)
      obtain ⟨hne, more, hmore, hlist⟩ := ih _ hlt hmoves'.isEof hq rfl
      rw [readList_comma heof hread hq hcomma]
      obtain ⟨next, items, hitems⟩ := List.exists_cons_of_ne_nil hne
      rw [hitems] at hlist ⊢
      refine ⟨List.cons_ne_nil _ _, _, hmoves'.trans hmore, ?_⟩
      rw [List.append_assoc]
      exact .cons hlies hcomma hlist

end Parser

/-! ### What lies on tokens is read from them anywhere -/

/-- Wherever the tokens stand before something that ends an item, they are read as the item `i`, if
it is not too deep. -/
def ReadsAs (ts : List Token) (i : SelectItem) : Prop :=
  ∀ p rest, Faces p ts rest → EndsItem (rest.map Token.kind) → p.depth + i.nesting ≤ maxDepth →
    ∃ q, item readList p = (i, q) ∧ Moves p ts q ∧ q.rest = rest ∧ q.halted = false

/-- Wherever the tokens stand before something that ends a list, they are read as the list, if it is
not too deep. -/
def ReadsAsList (ts : List Token) (items : List SelectItem) : Prop :=
  ∀ p rest, Faces p ts rest → EndsList (rest.map Token.kind) →
    p.depth + listNesting items ≤ maxDepth →
      ∃ q, readList p = (items, q) ∧ Moves p ts q ∧ q.rest = rest ∧ q.halted = false

/-- The first token of an item without an error does not close a block. -/
theorem LiesOn.exists_first {ts : List Token} {i : SelectItem} (h : LiesOn ts i)
    (hclean : i.errors = []) : ∃ t, ts.head? = some t ∧ t.kind ≠ .rightParen := by
  -- The parser that has these tokens only.
  have hfaces (ts : List Token) : Faces { rest := ts, eof := ⟨.eof, {}⟩ } ts [] :=
    ⟨(List.append_nil ts).symm, rfl, rfl⟩
  have hfirst {ts : List Token} {hd : Head} {q : Parser} (hne : ts ≠ [])
      (hhead : head { rest := ts, eof := ⟨.eof, {}⟩ } = .ok hd q) :
      ∃ t, ts.head? = some t ∧ t.kind ≠ .rightParen := by
    obtain ⟨t, more, rfl⟩ := List.exists_cons_of_ne_nil hne
    exact ⟨t, rfl, peek_of_head rfl hhead⟩
  cases h with
  | invalid => cases hclean
  | whole hreads hspan =>
    obtain ⟨first, -, hne, -, -⟩ := hspan
    obtain ⟨q, hhead, -⟩ := hreads _ [] (hfaces ts) (by simp [EndsItem])
    exact hfirst (by rintro rfl; cases hne) hhead
  | block hopens hne =>
    obtain ⟨q, hhead, -⟩ := hopens _ [] (hfaces _) (by simp) (show 0 < maxDepth by decide)
    obtain ⟨t, ht, hkind⟩ := hfirst hne hhead
    exact ⟨t, by rw [List.head?_append, ht]; rfl, hkind⟩

theorem ReadsAs.single {ts : List Token} {i : SelectItem} (h : ReadsAs ts i) :
    ReadsAsList ts [i] := by
  intro p rest hfaces hrest hdepth
  rw [listNesting_singleton] at hdepth
  obtain ⟨q, hread, hmoves, hq, hgoes⟩ := h p rest hfaces hrest.endsItem hdepth
  refine ⟨q, readList_last hfaces.eof hread (Or.inr fun hcomma => ?_), hmoves, hq, hgoes⟩
  have hhead := head?_of_peek hmoves.isEof (by decide) hcomma
  rw [hq] at hhead
  cases hrest _ hhead

theorem ReadsAs.cons {ts us : List Token} {comma : Token} {i : SelectItem} {items : List SelectItem}
    (h : ReadsAs ts i) (hcomma : comma.kind = .comma) (hmore : ReadsAsList us items) :
    ReadsAsList (ts ++ comma :: us) (i :: items) := by
  intro p rest hfaces hrest hdepth
  rw [listNesting, ← Nat.add_max_add_left] at hdepth
  obtain ⟨hdepth, hdepth'⟩ := Nat.max_le.1 hdepth
  have hfaces' : Faces p ts (comma :: (us ++ rest)) :=
    ⟨by rw [hfaces.rest]; simp, hfaces.eof, hfaces.halted⟩
  obtain ⟨q, hread, hmoves, hq, hgoes⟩ := h p _ hfaces' (by
    rw [List.map_cons, hcomma]
    exact endsItem_comma) hdepth
  have hcurrent : q.current = comma := by rw [current, hq]; rfl
  have hpeek : q.peek = .comma := by rw [peek, hcurrent, hcomma]
  have hmoves' := hmoves.advance (hpeek ▸ TokenKind.noConfusion)
  have hfaces'' : Faces q.advance us rest := ⟨by rw [advance, hq]; rfl, hmoves'.isEof, hgoes⟩
  obtain ⟨r, hlist, hmore, hr, hgoes'⟩ := hmore q.advance rest hfaces'' hrest (by
    rwa [hmoves'.depth])
  refine ⟨r, ?_, ?_, hr, hgoes'⟩
  · rw [readList_comma hfaces.eof hread hgoes hpeek, hlist]
  · have htrans := hmoves'.trans hmore
    rw [hcurrent] at htrans
    simpa using htrans

theorem Parser.close_paren {p : Parser} {resource : Resource} {items : List SelectItem}
    (hgoes : p.halted = false) (hparen : p.peek = .rightParen) :
    close resource none items p =
      (.block { resource with span := resource.span.cover p.current.span } items, p.advance) := by
  rw [close, if_neg (Bool.eq_false_iff.1 hgoes), if_pos hparen]
  rfl

/-- A block without an error is read when its list is, which may be empty. -/
theorem ReadsAsList.block {opening inner : List Token} {paren : Token} {resource : Resource}
    {items : List SelectItem} {s : Span} (hopens : Opens opening resource (items = []))
    (hlist : items = [] ∧ inner = [] ∨
      (∃ t, inner.head? = some t ∧ t.kind ≠ .rightParen) ∧ ReadsAsList inner items)
    (hparen : paren.kind = .rightParen)
    (hspan : Tokens.Cover (opening ++ (inner ++ [paren])) s) :
    ReadsAs (opening ++ (inner ++ [paren])) (.block { resource with span := s } items) := by
  intro p rest hfaces hrest hdepth
  rw [SelectItem.nesting] at hdepth
  have hfaces' : Faces p opening (inner ++ paren :: rest) :=
    ⟨by rw [hfaces.rest]; simp, hfaces.eof, hfaces.halted⟩
  have hclose (hnext : ((inner ++ paren :: rest).map Token.kind).head? = some .rightParen) :
      items = [] := by
    obtain ⟨hnil, -⟩ | ⟨⟨t, ht, hkind⟩, -⟩ := hlist
    · exact hnil
    · rw [List.head?_map, List.head?_append, ht] at hnext
      exact absurd (Option.some.inj hnext) hkind
  obtain ⟨q, hhead, hmoves, hq, hgoes⟩ := hopens p _ hfaces' hclose (by omega)
  -- The closing parenthesis comes next, behind the list.
  obtain ⟨r, hread, hinner, hr, hgoes'⟩ : ∃ r, item readList p = close resource none items r ∧
      Moves p (opening ++ inner) r ∧ r.rest = paren :: rest ∧ r.halted = false := by
    obtain ⟨rfl, rfl⟩ | ⟨⟨t, ht, hkind⟩, hlist⟩ := hlist
    · have hpeek : q.peek = .rightParen := by rw [peek, current, hq]; exact hparen
      exact ⟨q, item_empty hhead hpeek, by rwa [List.append_nil], hq, hgoes⟩
    · have hpeek : q.peek ≠ .rightParen := by
        obtain ⟨more, rfl⟩ := List.head?_eq_some_iff.1 ht
        rw [peek, current, hq]
        exact hkind
      have henter : q.enter.depth = p.depth + 1 := congrArg (· + 1) hmoves.depth
      obtain ⟨r, hread, hmoves', hr, hgoes'⟩ := hlist q.enter (paren :: rest)
        ⟨hq, hmoves.isEof, hgoes⟩ (by rw [List.map_cons, hparen]; simp [EndsList])
        (by rw [henter]; omega)
      refine ⟨r.leave, ?_, hmoves.trans hmoves'.leave, hr, hgoes'⟩
      rw [item_block hhead hpeek, hread]
  have hcurrent : r.current = paren := by rw [current, hr]; rfl
  have hpeek : r.peek = .rightParen := by rw [peek, hcurrent, hparen]
  have hmoves' := hinner.advance (hpeek ▸ TokenKind.noConfusion)
  rw [hcurrent, List.append_assoc] at hmoves'
  refine ⟨r.advance, ?_, hmoves', by rw [advance, hr]; rfl, hgoes'⟩
  have hcover : resource.span.cover r.current.span = s := by
    rw [(head_span hhead).2 _ _ rfl]
    exact (hmoves'.cover (by simp)).unique hspan
  rw [hread, close_paren hgoes' hpeek, hcover]

/-- The first token of a list that has items and no error does not close a block. -/
theorem LiesOnList.exists_first {ts : List Token} {items : List SelectItem}
    (h : LiesOnList ts items) (hclean : listErrors items = []) (hne : items ≠ []) :
    ∃ t, ts.head? = some t ∧ t.kind ≠ .rightParen := by
  cases h with
  | nil => exact absurd rfl hne
  | single hitem => exact hitem.exists_first (by simpa [listErrors] using hclean)
  | cons hitem =>
    obtain ⟨t, ht, hkind⟩ := hitem.exists_first (List.append_eq_nil_iff.1 hclean).1
    exact ⟨t, by rw [List.head?_append, ht]; rfl, hkind⟩

mutual

/-- An item without an error is read from its tokens wherever they stand. -/
theorem LiesOn.readsAs {ts : List Token} {i : SelectItem} :
    LiesOn ts i → i.errors = [] → ReadsAs ts i
  | .invalid .., hclean => by cases hclean
  | .whole hreads _ _ _, _ => fun p rest hfaces hrest _ => by
    obtain ⟨q, hhead, hmoves, hq, hgoes⟩ := hreads p rest hfaces hrest
    exact ⟨q, item_complete hhead, hmoves, hq, hgoes⟩
  | @LiesOn.block opening inner closing resource items s hopens _ hlist hcloses hspan,
      hclean => by
    obtain ⟨paren, rfl, hparen⟩ | ⟨-, last, hlast, herrors⟩ := hcloses
    · refine ReadsAsList.block hopens ?_ hparen hspan
      by_cases hnil : items = []
      · subst hnil
        cases hlist
        exact Or.inl ⟨rfl, rfl⟩
      · exact Or.inr ⟨hlist.exists_first hclean hnil, hlist.readsAsList hclean hnil⟩
    -- A block in which the reading stopped has an error.
    · obtain ⟨before, rfl⟩ := List.getLast?_eq_some_iff.1 hlast
      rw [SelectItem.errors, listErrors_append, listErrors, listErrors, List.append_nil] at hclean
      exact absurd (List.append_eq_nil_iff.1 hclean).2 herrors

theorem LiesOnList.readsAsList {ts : List Token} {items : List SelectItem} :
    LiesOnList ts items → listErrors items = [] → items ≠ [] → ReadsAsList ts items
  | .nil, _, hne => absurd rfl hne
  | .single hitem, hclean, _ => (hitem.readsAs (by simpa [listErrors] using hclean)).single
  | .cons hitem hcomma hmore, hclean, _ => by
    obtain ⟨hi, hitems⟩ := List.append_eq_nil_iff.1 hclean
    exact (hitem.readsAs hi).cons hcomma (hmore.readsAsList hitems (List.cons_ne_nil _ _))

end

/-! ### Items inside others -/

theorem LiesOn.cover {ts : List Token} {i : SelectItem} (h : LiesOn ts i)
    (hi : ∀ e discarded, i ≠ .invalid e discarded) : Tokens.Cover ts i.span := by
  cases h with
  | invalid ts error discarded => exact absurd rfl (hi error discarded)
  | whole _ hspan => exact hspan
  | block _ _ _ _ hspan => exact hspan

/-- There is nothing inside an item that is no block. -/
theorem SelectItem.walk_of_nesting {i : SelectItem} (hnesting : i.nesting = 0) : i.walk = [i] := by
  cases i with
  | block => cases hnesting
  | _ => rfl

mutual

/-- An item on the walk through another lies on some of its tokens. -/
theorem LiesOn.exists_part {ts : List Token} {i j : SelectItem} :
    LiesOn ts i → j ∈ i.walk → ∃ before us after, ts = before ++ us ++ after ∧ LiesOn us j
  | .invalid ts e discarded, hj => by
    obtain rfl := List.mem_singleton.1 hj
    exact ⟨[], ts, [], by simp, .invalid ts e discarded⟩
  | .whole hreads hspan hclean hnesting, hj => by
    rw [SelectItem.walk_of_nesting hnesting] at hj
    obtain rfl := List.mem_singleton.1 hj
    exact ⟨[], ts, [], by simp, .whole hreads hspan hclean hnesting⟩
  | @LiesOn.block opening inner closing resource items s hopens hne hlist hcloses hspan, hj => by
    obtain rfl | hj := List.mem_cons.1 hj
    · exact ⟨[], _, [], by simp, .block hopens hne hlist hcloses hspan⟩
    · obtain ⟨before, us, after, rfl, hlies⟩ := hlist.exists_part hj
      exact ⟨opening ++ before, us, after ++ closing, by simp, hlies⟩

/-- An item on the walk through a list lies on some of its tokens. -/
theorem LiesOnList.exists_part {ts : List Token} {items : List SelectItem} {j : SelectItem} :
    LiesOnList ts items → j ∈ listWalk items →
      ∃ before us after, ts = before ++ us ++ after ∧ LiesOn us j
  | .nil, hj => by cases hj
  | .single hitem, hj => hitem.exists_part (by simpa [listWalk] using hj)
  | @LiesOnList.cons ts us comma i next items hitem _ hmore, hj => by
    obtain hj | hj := List.mem_append.1 hj
    · obtain ⟨before, vs, after, rfl, hlies⟩ := hitem.exists_part hj
      exact ⟨before, vs, after ++ comma :: us, by simp, hlies⟩
    · obtain ⟨before, vs, after, rfl, hlies⟩ := hmore.exists_part hj
      exact ⟨ts ++ comma :: before, vs, after, by simp, hlies⟩

end

/-- An item of a list lies on some of its tokens, and there are others behind it unless it is the
last. -/
theorem LiesOnList.exists_item {ts : List Token} {items : List SelectItem} {i : SelectItem}
    (h : LiesOnList ts items) (hi : i ∈ items) :
    ∃ before us after, ts = before ++ us ++ after ∧ LiesOn us i ∧
      (after = [] → items.getLast? = some i) := by
  induction items generalizing ts with
  | nil => cases hi
  | cons first items ih =>
    cases h with
    | single hitem =>
      obtain rfl := List.mem_singleton.1 hi
      exact ⟨[], ts, [], by simp, hitem, fun _ => rfl⟩
    | @cons ts us comma _ next items hitem _ hmore =>
      obtain rfl | hi := List.mem_cons.1 hi
      · exact ⟨[], ts, comma :: us, by simp, hitem, by simp⟩
      · obtain ⟨before, vs, after, rfl, hlies, hlast⟩ := ih hmore hi
        refine ⟨ts ++ comma :: before, vs, after, by simp, hlies, fun hafter => ?_⟩
        rw [List.getLast?_cons_cons]
        exact hlast hafter

end EmbedQuery
