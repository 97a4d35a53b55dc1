import EmbedQuery.Proofs.Query.Spans

/-!
# Reading does not look at spans

One lemma for each step of the list reader, and then the relation `Follows f g n m`: on a parser
with its spans mapped by `f`, the step `n` does what `m` does on the parser itself, up to mapping
the outcome. It passes through `>>=`, so each reading step is followed by itself, one lemma a step,
and `parse_mapSpans` closes the chain by induction on the bound of the list reader: for a map that
respects joining, mapping the spans of the tokens and then reading gives what reading and then
mapping gives.
-/

namespace EmbedQuery

/-! ### Modifiers -/

namespace Modifiers

variable {f : Span → Span}

/-- The modifiers with the span of their contradiction mapped. -/
def mapSpans (f : Span → Span) (m : Modifiers) : Modifiers :=
  { m with conflict := m.conflict.map (ParseError.mapSpans f) }

theorem add_mapSpans (m : Modifiers) (modifier : String × Span) :
    (m.mapSpans f).add (modifier.map id f) = (m.add modifier).mapSpans f := by
  obtain ⟨name, span⟩ := modifier
  rw [Prod.map_apply, id]
  cases h : JoinModifier.ofName? name with
  | some join =>
    rw [add_join h, add_join h]
    simp only [mapSpans, Option.map_or, Option.map_if]
    rfl
  | none =>
    rw [add_hint h, add_hint h]
    obtain ⟨join, hint, conflict⟩ := m
    cases hint with
    | none => simp [mapSpans]
    | some first =>
      simp only [mapSpans, Option.map_or, Option.bind_some, Option.map_if]
      rfl

theorem foldl_add_mapSpans (m : Modifiers) (modifiers : List (String × Span)) :
    (modifiers.map (Prod.map id f)).foldl add (m.mapSpans f) =
      (modifiers.foldl add m).mapSpans f := by
  induction modifiers generalizing m with
  | nil => rfl
  | cons modifier modifiers ih =>
    rw [List.map_cons, List.foldl_cons, List.foldl_cons, add_mapSpans, ih]

/-- What modifiers say does not depend on where they stand. -/
theorem ofList_map (modifiers : List (String × Span)) :
    ofList (modifiers.map (Prod.map id f)) = (ofList modifiers).mapSpans f :=
  foldl_add_mapSpans {} modifiers

end Modifiers

namespace Parser

variable {f : Span → Span} {α β α' β' : Type}

/-! ### Steps of the list -/

section Steps

variable {items : Parser → List SelectItem × Parser} {p q : Parser} {fuel : Nat}

theorem item_error {e : ParseError} (h : head p = .error e q) :
    item items p = (.invalid e [], q.halt) := by
  rw [item, h]

theorem item_complete {i : SelectItem} (h : head p = .ok (.complete i) q) :
    item items p = (i, q) := by
  rw [item, h]

theorem item_empty {resource : Resource} {fault : Option ParseError}
    (h : head p = .ok (.opening resource fault) q) (hq : q.peek = .rightParen) :
    item items p = close resource fault [] q := by
  simp only [item, h, hq, if_true]
  rfl

theorem item_block {resource : Resource} {fault : Option ParseError}
    (h : head p = .ok (.opening resource fault) q) (hq : q.peek ≠ .rightParen) :
    item items p = close resource fault (items q.enter).1 (items q.enter).2.leave := by
  simp only [item, h, hq, if_false]

/-- The list ends behind an item that halts the parser or that no comma follows. -/
theorem itemsFrom_last {i : SelectItem} (h : item (itemsFrom fuel) p = (i, q))
    (hq : q.halted = true ∨ q.peek ≠ .comma) : itemsFrom (fuel + 1) p = ([i], q) := by
  have hend : (q.halted || q.peek ≠ .comma) = true := by simpa using hq
  rw [itemsFrom, h]
  exact if_pos hend

theorem itemsFrom_comma {i : SelectItem} (h : item (itemsFrom fuel) p = (i, q))
    (hhalted : q.halted = false) (hcomma : q.peek = .comma) :
    itemsFrom (fuel + 1) p =
      (i :: (itemsFrom fuel q.advance).1, (itemsFrom fuel q.advance).2) := by
  have hend : ¬(q.halted || q.peek ≠ .comma) = true := by simp [hhalted, hcomma]
  rw [itemsFrom, h]
  exact if_neg hend

/-- The items of a query and the parser behind them, before the end of the input is looked for. -/
def topItems (p : Parser) : List SelectItem × Parser :=
  if p.peek = .eof then ([], p) else itemsFrom (p.rest.length + 1) p

theorem parse_eq (p : Parser) :
    p.parse =
      if (topItems p).2.halted || (topItems p).2.peek = .eof then (⟨(topItems p).1⟩, (topItems p).2)
      else
        (⟨(topItems p).1 ++ [.invalid ((topItems p).2.unexpected "',' or end of input") []]⟩,
          (topItems p).2.halt) :=
  rfl

end Steps

/-- The parser with the spans of its tokens mapped. -/
def mapSpans (f : Span → Span) (p : Parser) : Parser :=
  { p with
    previous := f p.previous
    rest := p.rest.map (Token.mapSpans f)
    eof := p.eof.mapSpans f }

/-- The outcome of a reading step with the spans in the parser and in the error mapped, and the
value mapped by `g`. -/
def mapResult (f : Span → Span) (g : α → β) :
    EStateM.Result ParseError Parser α → EStateM.Result ParseError Parser β
  | .ok a p => .ok (g a) (p.mapSpans f)
  | .error e p => .error (e.mapSpans f) (p.mapSpans f)

/-- The step `n` does with mapped spans what `m` does with the spans themselves. -/
def Follows (f : Span → Span) (g : α → β) (n : Reading β) (m : Reading α) : Prop :=
  ∀ p, n (p.mapSpans f) = mapResult f g (m p)

theorem current_mapSpans (p : Parser) : (p.mapSpans f).current = p.current.mapSpans f := by
  obtain ⟨previous, rest, eof, depth, halted⟩ := p
  cases rest <;> rfl

@[simp] theorem peek_mapSpans (p : Parser) : (p.mapSpans f).peek = p.peek := by
  rw [peek, current_mapSpans]
  rfl

@[simp] theorem advance_mapSpans (p : Parser) :
    (p.mapSpans f).advance = p.advance.mapSpans f := by
  rw [advance, current_mapSpans]
  simp [advance, mapSpans, Token.mapSpans, List.map_tail]

theorem unexpected_mapSpans (p : Parser) (expected : String) :
    (p.mapSpans f).unexpected expected = (p.unexpected expected).mapSpans f := by
  simp [unexpected, current_mapSpans, ParseError.mapSpans, Token.mapSpans]

namespace Follows

theorem pure {g : α → β} {a : α} {b : β} (h : b = g a) : Follows f g (pure b) (pure a) :=
  fun _ => h ▸ rfl

theorem get : Follows f (Parser.mapSpans f) (get : Reading Parser) (get : Reading Parser) :=
  fun _ => rfl

theorem set {p q : Parser} (h : q = p.mapSpans f) :
    Follows f id (set q : Reading PUnit) (set p) := fun _ => h ▸ rfl

theorem modify {s : Parser → Parser} (h : ∀ p, s (p.mapSpans f) = (s p).mapSpans f) :
    Follows f id (modify s : Reading PUnit) (modify s) := fun p => by
  show EStateM.Result.ok _ (s (p.mapSpans f)) = EStateM.Result.ok _ ((s p).mapSpans f)
  rw [h]

theorem throw (e : ParseError) :
    Follows f id (throw (e.mapSpans f) : Reading α) (throw e) := fun _ => rfl

theorem bind {g : α → α'} {h : β → β'} {m : Reading α} {n : Reading α'} {k : α → Reading β}
    {l : α' → Reading β'} (hm : Follows f g n m) (hk : ∀ a, Follows f h (l (g a)) (k a)) :
    Follows f h (n >>= l) (m >>= k) := by
  intro p
  show EStateM.bind n l (p.mapSpans f) = mapResult f h (EStateM.bind m k p)
  unfold EStateM.bind
  rw [hm p]
  cases m p with
  | ok a q => exact hk a q
  | error e q => rfl

end Follows

theorem accept_follows (kind : TokenKind) : Follows f id (accept kind) (accept kind) := by
  intro p
  unfold accept
  rw [peek_mapSpans, advance_mapSpans]
  split <;> rfl

theorem expect_follows (kind : TokenKind) (expected : String) :
    Follows f id (expect kind expected) (expect kind expected) := by
  intro p
  unfold expect
  rw [peek_mapSpans, advance_mapSpans, unexpected_mapSpans]
  split <;> rfl

theorem expectName_follows (expected : String) :
    Follows f id (expectName expected) (expectName expected) := by
  intro p
  unfold expectName
  rw [peek_mapSpans, advance_mapSpans, unexpected_mapSpans]
  split <;> rfl

theorem readName_follows : Follows f id readName readName := by
  refine .bind (expectName_follows _) fun first => ?_
  refine .bind (accept_follows _) fun colon => ?_
  cases colon
  · exact .pure rfl
  · refine .bind (expectName_follows _) fun name => .pure rfl

theorem readCast_follows : Follows f id readCast readCast := by
  refine .bind (accept_follows _) fun found => ?_
  cases found
  · exact .pure rfl
  · exact .bind (expectName_follows _) fun target => .pure rfl

/-- An error in the place of an aggregate is mapped, an aggregate is kept. -/
def mapFault (f : Span → Span) : Except ParseError α → Except ParseError α
  | .ok a => .ok a
  | .error e => .error (e.mapSpans f)

theorem readAggregate_follows : Follows f (mapFault f) readAggregate readAggregate := by
  refine .bind (accept_follows _) fun found => ?_
  cases found
  · exact .pure rfl
  refine .bind .get fun p => ?_
  refine .bind (expectName_follows _) fun function => ?_
  refine .bind (expect_follows _ _) fun _ => ?_
  refine .bind (expect_follows _ _) fun _ => ?_
  dsimp only [id]
  rw [current_mapSpans]
  cases Aggregate.ofName? function with
  | some aggregate => exact .pure rfl
  | none => exact .pure rfl

/-- The modifiers with the spans of their names mapped. -/
abbrev mapModifiers (f : Span → Span) (modifiers : List (String × Span)) : List (String × Span) :=
  modifiers.map (Prod.map id f)

theorem takeModifiers_mapSpans (tokens : List Token) :
    takeModifiers (tokens.map (Token.mapSpans f)) =
      (mapModifiers f (takeModifiers tokens).1,
        (takeModifiers tokens).2.map (Token.mapSpans f)) := by
  fun_induction takeModifiers tokens with
  | case1 s name span rest modifiers after h ih =>
    simp [takeModifiers, Token.mapSpans, mapModifiers] at ih ⊢
    simp [ih, h]
  | case2 rest h =>
    rw [takeModifiers.eq_2]
    · rfl
    intro s name span more heq
    obtain ⟨⟨first, _⟩, others, rfl, hfirst, hothers⟩ := List.map_eq_cons_iff.1 heq
    obtain ⟨⟨second, _⟩, others, rfl, hsecond, -⟩ := List.map_eq_cons_iff.1 hothers
    obtain ⟨rfl, -⟩ : first = .bang ∧ _ := Token.mk.inj hfirst
    obtain ⟨rfl, -⟩ : second = .identifier name ∧ _ := Token.mk.inj hsecond
    exact h _ _ _ _ rfl

theorem readModifiers_follows :
    Follows f (mapModifiers f) readModifiers readModifiers := by
  refine .bind .get fun p => ?_
  simp only [mapSpans, takeModifiers_mapSpans]
  obtain ⟨modifiers, rest⟩ := takeModifiers p.rest
  -- The parser moves behind the last modifier taken, or stays where it is.
  have hprevious : ((mapModifiers f modifiers).getLast?.map Prod.snd).getD (f p.previous) =
      f ((modifiers.getLast?.map Prod.snd).getD p.previous) := by
    cases h : modifiers.getLast? <;> simp [mapModifiers, h]
  simp only [hprevious]
  refine .bind (.set rfl) fun _ => ?_
  refine .bind (accept_follows _) fun found => ?_
  cases found
  · exact .pure rfl
  · refine .bind .get fun q => ?_
    simp only [unexpected_mapSpans]
    exact .bind (.throw _) fun _ => .pure rfl

theorem itemOr_mapSpans (fault : Option ParseError) (item : SelectItem) :
    itemOr (fault.map (ParseError.mapSpans f)) (item.mapSpans f) =
      (itemOr fault item).mapSpans f := by
  cases fault <;> rfl

/-- The head of an item with the spans in it mapped. -/
def Head.mapSpans (f : Span → Span) : Head → Head
  | complete item => complete (item.mapSpans f)
  | opening resource fault => opening (resource.mapSpans f) (fault.map (ParseError.mapSpans f))

theorem readOpening_follows (hf : Span.Joining f) (resource : Resource) (isCount : Bool)
    (fault : Option ParseError) :
    Follows f (Head.mapSpans f)
      (readOpening (resource.mapSpans f) isCount (fault.map (ParseError.mapSpans f)))
      (readOpening resource isCount fault) := by
  refine .bind .get fun p => ?_
  rw [peek_mapSpans]
  split
  · refine .bind (.modify advance_mapSpans) fun _ => ?_
    refine .bind readCast_follows fun cast => ?_
    refine .bind .get fun q => ?_
    refine .pure (congrArg Head.complete ?_)
    rw [← itemOr_mapSpans, SelectItem.mapSpans, hf]
    rfl
  · refine .bind .get fun q => ?_
    show Follows f _ (if maxDepth ≤ q.depth then _ else _) _
    split
    · exact .bind (.throw ⟨.tooDeep, q.previous⟩) fun _ => .pure rfl
    · exact .pure rfl

theorem suffixItem_mapSpans (resource : Resource) (isResource : Bool) (fault : Option ParseError)
    (aggregate : Except ParseError (Option Aggregate)) (cast : Option String) :
    suffixItem (resource.mapSpans f) isResource (fault.map (ParseError.mapSpans f))
        (mapFault f aggregate) cast =
      (suffixItem resource isResource fault aggregate cast).mapSpans f := by
  cases aggregate <;> cases isResource <;>
    simp only [suffixItem, mapFault, ← itemOr_mapSpans, Option.map_or, Option.map_if,
      Option.map_some, Bool.false_eq_true, if_true, if_false] <;> rfl

theorem readSuffix_follows (hf : Span.Joining f) (resource : Resource) (isResource : Bool)
    (fault : Option ParseError) :
    Follows f (SelectItem.mapSpans f)
      (readSuffix (resource.mapSpans f) isResource (fault.map (ParseError.mapSpans f)))
      (readSuffix resource isResource fault) := by
  refine .bind readAggregate_follows fun aggregate => ?_
  refine .bind readCast_follows fun cast => ?_
  refine .bind .get fun p => .pure ?_
  rw [← suffixItem_mapSpans]
  show suffixItem { resource with span := (f resource.span).cover (f p.previous) } _ _ _ _ = _
  rw [← hf]
  rfl

theorem readBody_follows (hf : Span.Joining f) (resource : Resource) (isResource : Bool)
    (fault : Option ParseError) :
    Follows f (Head.mapSpans f)
      (readBody (resource.mapSpans f) isResource (fault.map (ParseError.mapSpans f)))
      (readBody resource isResource fault) := by
  refine .bind (accept_follows _) fun found => ?_
  cases found
  · exact .bind (readSuffix_follows hf _ _ _) fun item => .pure rfl
  · exact readOpening_follows hf _ _ _

theorem head_follows (hf : Span.Joining f) : Follows f (Head.mapSpans f) head head := by
  refine .bind .get fun p => ?_
  rw [current_mapSpans]
  refine .bind (accept_follows _) fun star => ?_
  cases star
  case true => exact .pure rfl
  refine .bind (accept_follows _) fun colon => ?_
  refine .bind readName_follows fun (label, name) => ?_
  refine .bind readModifiers_follows fun modifiers => ?_
  rw [Modifiers.ofList_map]
  have hempty : (mapModifiers f modifiers).isEmpty = modifiers.isEmpty := List.isEmpty_map
  rw [hempty]
  obtain ⟨join, hint, conflict⟩ := Modifiers.ofList modifiers
  have hbody := readBody_follows hf { name, label, hint, join, span := p.current.span }
    (!modifiers.isEmpty)
    ((if colon = true then some ⟨.emptyAlias, p.current.span⟩ else none).or conflict)
  rw [Option.map_or, Option.map_if] at hbody
  exact hbody

theorem close_mapSpans (hf : Span.Joining f) (resource : Resource) (fault : Option ParseError)
    (items : List SelectItem) (p : Parser) :
    close (resource.mapSpans f) (fault.map (ParseError.mapSpans f)) (mapSpansList f items)
        (p.mapSpans f) =
      (close resource fault items p).map (SelectItem.mapSpans f) (mapSpans f) := by
  have hitem (s : Span) : itemOr (fault.map (ParseError.mapSpans f))
        (.block { resource.mapSpans f with span := (f resource.span).cover (f s) }
          (mapSpansList f items)) =
      (itemOr fault (.block { resource with span := resource.span.cover s } items)).mapSpans f := by
    rw [← itemOr_mapSpans, ← hf]
    rfl
  unfold close
  rw [peek_mapSpans, unexpected_mapSpans, advance_mapSpans, current_mapSpans]
  show (if p.halted = true then _ else _) = _
  split
  · exact congrArg (·, p.mapSpans f) (hitem p.previous)
  split
  · exact congrArg (·, p.advance.mapSpans f) (hitem p.current.span)
  · rfl

theorem item_mapSpans (hf : Span.Joining f) {items : Parser → List SelectItem × Parser}
    (hitems : ∀ p, items (p.mapSpans f) = (items p).map (mapSpansList f) (mapSpans f))
    (p : Parser) :
    item items (p.mapSpans f) = (item items p).map (SelectItem.mapSpans f) (mapSpans f) := by
  have hhead := head_follows hf p
  match h : head p with
  | .error e q =>
    rw [h] at hhead
    rw [item_error h, item_error hhead]
    rfl
  | .ok (.complete i) q =>
    rw [h] at hhead
    rw [item_complete h, item_complete hhead]
    rfl
  | .ok (.opening resource fault) q =>
    rw [h] at hhead
    by_cases hq : q.peek = .rightParen
    · rw [item_empty h hq, item_empty hhead (by rwa [peek_mapSpans])]
      exact close_mapSpans hf resource fault [] q
    · rw [item_block h hq, item_block hhead (by rwa [peek_mapSpans])]
      show close _ _ (items (q.enter.mapSpans f)).1 (items (q.enter.mapSpans f)).2.leave = _
      rw [hitems]
      exact close_mapSpans hf resource fault (items q.enter).1 (items q.enter).2.leave

theorem itemsFrom_mapSpans (hf : Span.Joining f) (fuel : Nat) (p : Parser) :
    itemsFrom fuel (p.mapSpans f) = (itemsFrom fuel p).map (mapSpansList f) (mapSpans f) := by
  induction fuel generalizing p with
  | zero => rfl
  | succ fuel ih =>
    rcases h : item (itemsFrom fuel) p with ⟨i, q⟩
    have hmapped := item_mapSpans hf ih p
    rw [h] at hmapped
    by_cases hq : q.halted = true ∨ q.peek ≠ .comma
    · rw [itemsFrom_last h hq, itemsFrom_last hmapped (by rwa [peek_mapSpans])]
      rfl
    · simp only [not_or, ne_eq, Decidable.not_not, Bool.not_eq_true] at hq
      rw [itemsFrom_comma h hq.1 hq.2, itemsFrom_comma hmapped hq.1 (by rw [peek_mapSpans, hq.2]),
        advance_mapSpans, ih]
      rfl

/-- Mapping the spans of the tokens and reading is reading and mapping the spans of the tree. -/
theorem parse_mapSpans (hf : Span.Joining f) (p : Parser) :
    (p.mapSpans f).parse = p.parse.map (QueryTree.mapSpans f) (mapSpans f) := by
  -- As many tokens as before: the bound of the list reader is the same.
  have htop : topItems (p.mapSpans f) = (topItems p).map (mapSpansList f) (mapSpans f) := by
    unfold topItems
    rw [peek_mapSpans, itemsFrom_mapSpans hf]
    have hlength : (p.mapSpans f).rest.length = p.rest.length := List.length_map _
    rw [hlength]
    split <;> rfl
  rw [parse_eq, parse_eq, htop]
  generalize topItems p = top
  obtain ⟨items, q⟩ := top
  show (if q.halted || (q.mapSpans f).peek = .eof then _ else _) = _
  rw [peek_mapSpans]
  split
  · rfl
  · rw [Prod.map_apply, unexpected_mapSpans, Prod.map_apply, QueryTree.mapSpans,
      mapSpansList_append]
    rfl

end Parser
end EmbedQuery
