import EmbedQuery.Proofs.Query.Modifiers
import EmbedQuery.Proofs.Query.Reading

/-!
# Heads of items on bare token kinds

`ofKinds ks d` is a parser before tokens of the kinds `ks`, without spans and inside `d` blocks. For
each reading step there are two lemmas: when it succeeds it has taken what the grammar says (the
names end in `_eq_ok`), and on what the grammar says it succeeds (`_append`, `_hit`). `head_clean`
and `head_complete` with `head_opening` put them together for the head of an item. What stands at
its front is read with faults, too (`Front`, `head_front`).
-/

namespace EmbedQuery

/-- What stands at the front of an item that is no star, up to its modifiers. -/
structure Front where
  /-- A colon stands first, with no alias before it. -/
  colon : Bool
  label : Option String
  name : String
  modifiers : List String

namespace Front

def tokens (f : Front) : List TokenKind :=
  (if f.colon then [.colon] else []) ++
    (aliasTokens f.label ++ .identifier f.name :: modifiersTokens f.modifiers)

/-- What the modifiers say. -/
def said (f : Front) : Modifiers := Modifiers.ofList (f.modifiers.map (·, {}))

/-- The resource that is named, without spans. -/
def resource (f : Front) : Resource where
  name := f.name
  label := f.label
  hint := f.said.hint
  join := f.said.join
  span := {}

/-- What is wrong with the front, if something is. -/
def fault (f : Front) : Option ParseError :=
  (if f.colon then some ⟨.emptyAlias, {}⟩ else none).or f.said.conflict

end Front

namespace Parser

variable {α β : Type} {ks rest : List TokenKind} {k : TokenKind} {d : Nat} {q : Parser}

/-- A parser before tokens of the given kinds, without spans, inside `depth` blocks. -/
def ofKinds (ks : List TokenKind) (depth : Nat) : Parser :=
  { previous := {}, rest := ks.map (⟨·, {}⟩), eof := ⟨.eof, {}⟩, depth }

@[simp] theorem map_kind_ofKinds : (ofKinds ks d).rest.map Token.kind = ks := by
  simp [ofKinds, Function.comp_def]

theorem ofKinds_inj {ks' : List TokenKind} (h : ofKinds ks d = ofKinds ks' d) : ks = ks' := by
  simpa using congrArg (fun p => p.rest.map Token.kind) h

@[simp] theorem peek_ofKinds : (ofKinds ks d).peek = ks.head?.getD .eof := by
  cases ks <;> rfl

/-- A token that comes next stands at the head of the kinds. -/
theorem eq_cons_of_peek (hk : k ≠ .eof) (h : (ofKinds ks d).peek = k) :
    ∃ rest, ks = k :: rest := by
  cases ks with
  | nil => exact absurd h.symm hk
  | cons first rest => exact ⟨rest, congrArg (· :: rest) h⟩

@[simp] theorem advance_ofKinds : (ofKinds (k :: ks) d).advance = ofKinds ks d := rfl

@[simp] theorem previous_ofKinds : (ofKinds ks d).previous = {} := rfl

@[simp] theorem span_current_ofKinds : (ofKinds ks d).current.span = {} := by
  cases ks <;> rfl

/-! ### Reading steps -/

/-- A step followed by another succeeds when both do. -/
theorem bind_eq_ok_iff {m : Reading α} {f : α → Reading β} {p : Parser} {b : β} :
    (m >>= f) p = .ok b q ↔ ∃ a r, m p = .ok a r ∧ f a r = .ok b q := by
  show EStateM.bind m f p = _ ↔ _
  unfold EStateM.bind
  cases m p with
  | ok a r =>
    constructor
    · intro h
      exact ⟨a, r, rfl, h⟩
    · rintro ⟨_, _, ⟨⟩, h⟩
      exact h
  | error e r => simp

theorem bind_of_ok {m : Reading α} {f : α → Reading β} {p r : Parser} {a : α} (h : m p = .ok a r) :
    (m >>= f) p = f a r := by
  show EStateM.bind m f p = f a r
  rw [EStateM.bind, h]

theorem pure_eq_ok_iff {a b : α} {p : Parser} :
    (pure a : Reading α) p = .ok b q ↔ a = b ∧ p = q := by
  show EStateM.Result.ok a p = _ ↔ _
  simp

theorem get_eq_ok_iff {p r : Parser} : (get : Reading Parser) p = .ok r q ↔ p = r ∧ p = q := by
  show EStateM.Result.ok p p = _ ↔ _
  simp

/-- What a head can be, if the parser stands inside `depth` blocks behind it. -/
inductive Head.Shape (depth : Nat) : Head → Prop
  | wildcard (span : Span) : Shape depth (.complete (.wildcard span))
  | count (fault : Option ParseError) (label cast : Option String) (span : Span) :
      Shape depth (.complete (itemOr fault (.count label cast span)))
  | suffix (resource : Resource) (isResource : Bool) (fault : Option ParseError)
      (aggregate : Except ParseError (Option Aggregate)) (cast : Option String) :
      Shape depth (.complete (suffixItem resource isResource fault aggregate cast))
  | opening (resource : Resource) (fault : Option ParseError) (hdepth : depth < maxDepth) :
      Shape depth (.opening resource fault)

theorem readOpening_shape {resource : Resource} {isCount : Bool} {fault : Option ParseError}
    {p : Parser} {hd : Head} (h : readOpening resource isCount fault p = .ok hd q) :
    hd.Shape q.depth := by
  obtain ⟨_, _, hget, h⟩ := bind_eq_ok_iff.1 h
  obtain ⟨rfl, rfl⟩ := get_eq_ok_iff.1 hget
  split at h
  · obtain ⟨_, _, -, h⟩ := bind_eq_ok_iff.1 h
    obtain ⟨cast, _, -, h⟩ := bind_eq_ok_iff.1 h
    obtain ⟨_, _, -, h⟩ := bind_eq_ok_iff.1 h
    obtain ⟨rfl, -⟩ := pure_eq_ok_iff.1 h
    exact .count _ _ _ _
  · obtain ⟨_, _, hget, h⟩ := bind_eq_ok_iff.1 h
    obtain ⟨rfl, rfl⟩ := get_eq_ok_iff.1 hget
    split at h
    · cases h
    · next hdepth =>
      obtain ⟨rfl, rfl⟩ := pure_eq_ok_iff.1 h
      exact .opening _ _ (Nat.lt_of_not_le hdepth)

/-- The head of an item is the item itself, unless there is room for a block. -/
theorem head_shape {p : Parser} {hd : Head} (h : head p = .ok hd q) : hd.Shape q.depth := by
  obtain ⟨_, _, -, h⟩ := bind_eq_ok_iff.1 h
  obtain ⟨star, _, -, h⟩ := bind_eq_ok_iff.1 h
  cases star with
  | true =>
    obtain ⟨rfl, -⟩ := pure_eq_ok_iff.1 h
    exact .wildcard _
  | false =>
    obtain ⟨colon, _, -, h⟩ := bind_eq_ok_iff.1 h
    obtain ⟨⟨label, name⟩, _, -, h⟩ := bind_eq_ok_iff.1 h
    obtain ⟨modifiers, _, -, h⟩ := bind_eq_ok_iff.1 h
    obtain ⟨paren, _, -, h⟩ := bind_eq_ok_iff.1 h
    cases paren with
    | true => exact readOpening_shape h
    | false =>
      obtain ⟨item, _, hsuffix, h⟩ := bind_eq_ok_iff.1 h
      obtain ⟨rfl, -⟩ := pure_eq_ok_iff.1 h
      obtain ⟨aggregate, _, -, h⟩ := bind_eq_ok_iff.1 hsuffix
      obtain ⟨cast, _, -, h⟩ := bind_eq_ok_iff.1 h
      obtain ⟨_, _, -, h⟩ := bind_eq_ok_iff.1 h
      obtain ⟨rfl, -⟩ := pure_eq_ok_iff.1 h
      exact .suffix _ _ _ _ _

theorem accept_hit : accept k (ofKinds (k :: ks) d) = .ok true (ofKinds ks d) := by
  simp [accept]

theorem accept_miss (hk : k ≠ .eof) (h : ks.head? ≠ some k) :
    accept k (ofKinds ks d) = .ok false (ofKinds ks d) := by
  cases ks with
  | nil => simp [accept, hk.symm]
  | cons k' ks =>
    have hne : k' ≠ k := fun heq => h (congrArg some heq)
    simp [accept, hne]

/-- A token other than the end of the input is taken exactly when it comes next. -/
theorem accept_eq_ok {found : Bool} (hk : k ≠ .eof) (h : accept k (ofKinds ks d) = .ok found q) :
    (found = true ∧ ∃ rest, ks = k :: rest ∧ q = ofKinds rest d) ∨
      (found = false ∧ ks.head? ≠ some k ∧ q = ofKinds ks d) := by
  by_cases hhead : ks.head? = some k
  · obtain ⟨rest, rfl⟩ := List.head?_eq_some_iff.1 hhead
    rw [accept_hit] at h
    cases h
    exact Or.inl ⟨rfl, rest, rfl, rfl⟩
  · rw [accept_miss hk hhead] at h
    cases h
    exact Or.inr ⟨rfl, hhead, rfl⟩

theorem expectName_hit {expected name : String} :
    expectName expected (ofKinds (.identifier name :: ks) d) = .ok name (ofKinds ks d) := rfl

theorem expectName_eq_ok {expected name : String}
    (h : expectName expected (ofKinds ks d) = .ok name q) :
    ∃ rest, ks = .identifier name :: rest ∧ q = ofKinds rest d := by
  unfold expectName at h
  rcases ks with _ | ⟨_ | _, rest⟩ <;> cases h
  exact ⟨rest, rfl, rfl⟩

theorem expect_hit {expected : String} :
    expect k expected (ofKinds (k :: ks) d) = .ok () (ofKinds ks d) := by
  simp [expect]

theorem expect_eq_ok (hk : k ≠ .eof) {expected : String} {u : Unit}
    (h : expect k expected (ofKinds ks d) = .ok u q) :
    ∃ rest, ks = k :: rest ∧ q = ofKinds rest d := by
  unfold expect at h
  split at h
  · next hpeek =>
    obtain ⟨rest, rfl⟩ := eq_cons_of_peek hk hpeek
    cases h
    exact ⟨rest, rfl, rfl⟩
  · cases h

/-! ### Names, casts and aggregates -/

theorem readName_eq_ok {label : Option String} {name : String}
    (h : readName (ofKinds ks d) = .ok (label, name) q) :
    ∃ rest, ks = aliasTokens label ++ .identifier name :: rest ∧
      (label = none → rest.head? ≠ some .colon) ∧ q = ofKinds rest d := by
  obtain ⟨first, r, hfirst, h⟩ := bind_eq_ok_iff.1 h
  obtain ⟨rest, rfl, rfl⟩ := expectName_eq_ok hfirst
  obtain ⟨found, r, hfound, h⟩ := bind_eq_ok_iff.1 h
  obtain ⟨rfl, rest, rfl, rfl⟩ | ⟨rfl, hmiss, rfl⟩ := accept_eq_ok (by decide) hfound
  · obtain ⟨second, r, hsecond, h⟩ := bind_eq_ok_iff.1 h
    obtain ⟨rest, rfl, rfl⟩ := expectName_eq_ok hsecond
    obtain ⟨heq, rfl⟩ := pure_eq_ok_iff.1 h
    cases heq
    exact ⟨rest, rfl, nofun, rfl⟩
  · obtain ⟨heq, rfl⟩ := pure_eq_ok_iff.1 h
    cases heq
    exact ⟨rest, rfl, fun _ => hmiss, rfl⟩

theorem readName_append {label : Option String} {name : String}
    (hrest : label = none → rest.head? ≠ some .colon) :
    readName (ofKinds (aliasTokens label ++ .identifier name :: rest) d) =
      .ok (label, name) (ofKinds rest d) := by
  cases label with
  | none =>
    refine (bind_of_ok expectName_hit).trans ?_
    exact bind_of_ok (accept_miss (by decide) (hrest rfl))
  | some label =>
    refine (bind_of_ok expectName_hit).trans ?_
    refine (bind_of_ok accept_hit).trans ?_
    exact bind_of_ok expectName_hit

theorem readCast_eq_ok {cast : Option String} (h : readCast (ofKinds ks d) = .ok cast q) :
    ∃ rest, ks = castTokens cast ++ rest ∧ q = ofKinds rest d := by
  obtain ⟨found, r, hfound, h⟩ := bind_eq_ok_iff.1 h
  obtain ⟨rfl, rest, rfl, rfl⟩ | ⟨rfl, -, rfl⟩ := accept_eq_ok (by decide) hfound
  · obtain ⟨target, r, htarget, h⟩ := bind_eq_ok_iff.1 h
    obtain ⟨rest, rfl, rfl⟩ := expectName_eq_ok htarget
    obtain ⟨rfl, rfl⟩ := pure_eq_ok_iff.1 h
    exact ⟨rest, rfl, rfl⟩
  · obtain ⟨rfl, rfl⟩ := pure_eq_ok_iff.1 h
    exact ⟨ks, rfl, rfl⟩

theorem readCast_append (cast : Option String) (hrest : rest.head? ≠ some .doubleColon) :
    readCast (ofKinds (castTokens cast ++ rest) d) = .ok cast (ofKinds rest d) := by
  cases cast with
  | none => exact bind_of_ok (accept_miss (by decide) hrest)
  | some target => exact (bind_of_ok accept_hit).trans (bind_of_ok expectName_hit)

theorem ofName?_name (aggregate : Aggregate) :
    Aggregate.ofName? aggregate.name = some aggregate := by
  cases aggregate <;> decide

theorem name_of_ofName? {function : String} {aggregate : Aggregate}
    (h : Aggregate.ofName? function = some aggregate) : aggregate.name = function := by
  simpa using List.find?_some h

theorem readAggregate_eq_ok {aggregate : Option Aggregate}
    (h : readAggregate (ofKinds ks d) = .ok (.ok aggregate) q) :
    ∃ rest, ks = aggregateTokens aggregate ++ rest ∧ q = ofKinds rest d := by
  obtain ⟨found, r, hfound, h⟩ := bind_eq_ok_iff.1 h
  obtain ⟨rfl, rest, rfl, rfl⟩ | ⟨rfl, -, rfl⟩ := accept_eq_ok (by decide) hfound
  · obtain ⟨_, _, hget, h⟩ := bind_eq_ok_iff.1 h
    obtain ⟨rfl, rfl⟩ := get_eq_ok_iff.1 hget
    obtain ⟨function, r, hfunction, h⟩ := bind_eq_ok_iff.1 h
    obtain ⟨rest, rfl, rfl⟩ := expectName_eq_ok hfunction
    obtain ⟨_, r, hopen, h⟩ := bind_eq_ok_iff.1 h
    obtain ⟨rest, rfl, rfl⟩ := expect_eq_ok (by decide) hopen
    obtain ⟨_, r, hclose, h⟩ := bind_eq_ok_iff.1 h
    obtain ⟨rest, rfl, rfl⟩ := expect_eq_ok (by decide) hclose
    cases hname : Aggregate.ofName? function with
    | none =>
      rw [hname] at h
      cases h
    | some found =>
      rw [hname] at h
      obtain ⟨heq, rfl⟩ := pure_eq_ok_iff.1 h
      cases heq
      exact ⟨rest, by simp [aggregateTokens, name_of_ofName? hname], rfl⟩
  · obtain ⟨heq, rfl⟩ := pure_eq_ok_iff.1 h
    cases heq
    exact ⟨ks, rfl, rfl⟩

theorem readAggregate_append (aggregate : Option Aggregate) (hrest : rest.head? ≠ some .dot) :
    readAggregate (ofKinds (aggregateTokens aggregate ++ rest) d) =
      .ok (.ok aggregate) (ofKinds rest d) := by
  cases aggregate with
  | none => exact bind_of_ok (accept_miss (by decide) hrest)
  | some aggregate =>
    refine (bind_of_ok accept_hit).trans ?_
    refine (bind_of_ok (m := get) rfl).trans ?_
    refine (bind_of_ok expectName_hit).trans ?_
    refine (bind_of_ok expect_hit).trans ?_
    refine (bind_of_ok expect_hit).trans ?_
    rw [ofName?_name]
    rfl

/-! ### Modifiers -/

/-- The modifiers of these names, without spans. -/
def unplaced (names : List String) : List (String × Span) := names.map (·, {})

theorem isEmpty_unplaced_iff {names : List String} :
    (unplaced names).isEmpty = true ↔ names = [] := by
  rw [unplaced, List.isEmpty_map, List.isEmpty_iff]

@[simp] theorem map_fst_unplaced (names : List String) : (unplaced names).map Prod.fst = names := by
  simp [unplaced, Function.comp_def]

/-- Modifiers are taken as long as a name follows a mark. -/
theorem takeModifiers_append {names : List String}
    (hrest : ∀ name more, rest ≠ .bang :: .identifier name :: more) :
    takeModifiers ((modifiersTokens names ++ rest).map (⟨·, {}⟩)) =
      (unplaced names, rest.map (⟨·, {}⟩)) := by
  induction names with
  | nil =>
    -- No name follows a mark in the kinds, and so none does in the tokens.
    refine takeModifiers.eq_2 _ fun s name span more heq => ?_
    obtain ⟨first, others, rfl, hfirst, hothers⟩ := List.map_eq_cons_iff.1 heq
    obtain ⟨second, others, rfl, hsecond, -⟩ := List.map_eq_cons_iff.1 hothers
    obtain ⟨rfl, -⟩ := Token.mk.inj hfirst
    obtain ⟨rfl, -⟩ := Token.mk.inj hsecond
    exact hrest name others rfl
  | cons name names ih =>
    show takeModifiers (⟨.bang, {}⟩ :: ⟨.identifier name, {}⟩ ::
      (modifiersTokens names ++ rest).map (⟨·, {}⟩)) = _
    rw [takeModifiers, ih]
    rfl

/-- Any tokens begin with modifiers, as many as there are. -/
theorem exists_modifiers (ks : List TokenKind) : ∃ names rest,
    ks = modifiersTokens names ++ rest ∧
      ∀ name more, rest ≠ .bang :: .identifier name :: more := by
  by_cases h : ∃ name more, ks = .bang :: .identifier name :: more
  · obtain ⟨name, more, rfl⟩ := h
    obtain ⟨names, rest, hmore, hrest⟩ := exists_modifiers more
    exact ⟨name :: names, rest, by rw [hmore]; rfl, hrest⟩
  · exact ⟨[], ks, rfl, fun name more heq => h ⟨name, more, heq⟩⟩
termination_by ks.length

/-- Reading modifiers is taking them and looking whether a lone mark follows. -/
theorem readModifiers_ofKinds {names : List String}
    (hrest : ∀ name more, rest ≠ .bang :: .identifier name :: more) :
    readModifiers (ofKinds (modifiersTokens names ++ rest) d) =
      (do
        if ← accept .bang then throw ((← get).unexpected "join modifier or hint")
        return unplaced names : Reading (List (String × Span))) (ofKinds rest d) := by
  -- The place behind the modifiers is that of the last one taken, which has no span.
  have hprevious : (((unplaced names).getLast?.map Prod.snd).getD {} : Span) = {} := by
    rw [unplaced, List.getLast?_map]
    cases names.getLast? <;> rfl
  unfold readModifiers
  refine (bind_of_ok (m := get) rfl).trans ?_
  rw [ofKinds, takeModifiers_append hrest]
  refine (bind_of_ok (m := set _) rfl).trans ?_
  rw [hprevious]
  rfl

theorem readModifiers_append {names : List String} (hrest : rest.head? ≠ some .bang) :
    readModifiers (ofKinds (modifiersTokens names ++ rest) d) =
      .ok (unplaced names) (ofKinds rest d) := by
  rw [readModifiers_ofKinds fun name more heq => hrest (by rw [heq]; rfl)]
  exact bind_of_ok (accept_miss (by decide) hrest)

theorem readModifiers_eq_ok {modifiers : List (String × Span)}
    (h : readModifiers (ofKinds ks d) = .ok modifiers q) :
    ∃ names rest, modifiers = unplaced names ∧ ks = modifiersTokens names ++ rest ∧
      q = ofKinds rest d := by
  obtain ⟨names, rest, rfl, hrest⟩ := exists_modifiers ks
  rw [readModifiers_ofKinds hrest] at h
  obtain ⟨found, r, hfound, h⟩ := bind_eq_ok_iff.1 h
  obtain ⟨rfl, more, rfl, rfl⟩ | ⟨rfl, -, rfl⟩ := accept_eq_ok (by decide) hfound
  · cases h
  · obtain ⟨rfl, rfl⟩ := pure_eq_ok_iff.1 h
    exact ⟨names, rest, rfl, rfl, rfl⟩

/-! ### What follows the modifiers -/

@[simp] theorem errors_itemOr_eq_nil_iff {fault : Option ParseError} {item : SelectItem} :
    (itemOr fault item).errors = [] ↔ fault = none ∧ item.errors = [] := by
  cases fault <;> simp [itemOr, SelectItem.errors]

/-- No error was met in the head of an item. -/
def Head.IsClean : Head → Prop
  | complete item => item.errors = []
  | opening _ fault => fault = none

theorem cover_unplaced {s : Span} (h : s = {}) : s.cover {} = {} := by
  rw [h]
  rfl

theorem readOpening_clean {resource : Resource} (hspan : resource.span = {}) {isCount : Bool}
    {fault : Option ParseError} {hd : Head}
    (h : readOpening resource isCount fault (ofKinds ks d) = .ok hd q) (hclean : hd.IsClean) :
    fault = none ∧
      ((isCount = true ∧ ∃ cast rest, ks = .rightParen :: (castTokens cast ++ rest) ∧
          hd = .complete (.count resource.label cast {}) ∧ q = ofKinds rest d) ∨
        (¬(isCount = true ∧ ks.head? = some .rightParen) ∧ d < maxDepth ∧
          hd = .opening resource none ∧ q = ofKinds ks d)) := by
  obtain ⟨_, _, hget, h⟩ := bind_eq_ok_iff.1 h
  obtain ⟨rfl, rfl⟩ := get_eq_ok_iff.1 hget
  split at h
  · next hcount =>
    obtain ⟨hplain, hparen⟩ := Bool.and_eq_true_iff.1 hcount
    obtain ⟨ks, rfl⟩ := eq_cons_of_peek (by decide) (of_decide_eq_true hparen)
    obtain ⟨_, r, hmodify, h⟩ := bind_eq_ok_iff.1 h
    cases hmodify
    obtain ⟨cast, r, hcast, h⟩ := bind_eq_ok_iff.1 h
    obtain ⟨rest, rfl, rfl⟩ := readCast_eq_ok hcast
    obtain ⟨_, _, hget, h⟩ := bind_eq_ok_iff.1 h
    obtain ⟨rfl, rfl⟩ := get_eq_ok_iff.1 hget
    obtain ⟨rfl, rfl⟩ := pure_eq_ok_iff.1 h
    obtain ⟨rfl, -⟩ := errors_itemOr_eq_nil_iff.1 hclean
    refine ⟨rfl, Or.inl ⟨hplain, cast, rest, rfl, ?_, rfl⟩⟩
    rw [previous_ofKinds, cover_unplaced hspan]
    rfl
  · next hcount =>
    simp only [peek_ofKinds, Bool.and_eq_true, decide_eq_true_eq] at hcount
    obtain ⟨_, _, hget, h⟩ := bind_eq_ok_iff.1 h
    obtain ⟨rfl, rfl⟩ := get_eq_ok_iff.1 hget
    split at h
    · cases h
    · next hdepth =>
      obtain ⟨rfl, rfl⟩ := pure_eq_ok_iff.1 h
      obtain rfl : fault = none := hclean
      refine ⟨rfl, Or.inr ⟨fun ⟨hc, hhead⟩ => hcount ⟨hc, ?_⟩, Nat.lt_of_not_le hdepth, rfl, rfl⟩⟩
      rw [hhead]
      rfl

theorem readOpening_count {resource : Resource} (hspan : resource.span = {})
    {fault : Option ParseError} {cast : Option String} (hrest : rest.head? ≠ some .doubleColon) :
    readOpening resource true fault (ofKinds (.rightParen :: (castTokens cast ++ rest)) d) =
      .ok (.complete (itemOr fault (.count resource.label cast {}))) (ofKinds rest d) := by
  refine (bind_of_ok (m := get) rfl).trans ?_
  refine (bind_of_ok (m := modify advance) rfl).trans ?_
  refine (bind_of_ok (readCast_append cast hrest)).trans ?_
  refine (bind_of_ok (m := get) rfl).trans ?_
  rw [previous_ofKinds, cover_unplaced hspan]
  rfl

theorem readOpening_block {resource : Resource} {isCount : Bool} {fault : Option ParseError}
    (hcount : ¬(isCount = true ∧ rest.head? = some .rightParen)) (hdepth : d < maxDepth) :
    readOpening resource isCount fault (ofKinds rest d) =
      .ok (.opening resource fault) (ofKinds rest d) := by
  have hplain : ¬(isCount && decide ((ofKinds rest d).peek = .rightParen)) = true := by
    cases rest <;> simp_all
  refine (bind_of_ok (m := get) rfl).trans ?_
  rw [if_neg hplain]
  refine (bind_of_ok (m := get) rfl).trans ?_
  exact congrFun (if_neg (Nat.not_le.2 hdepth)) _

theorem suffixItem_clean {resource : Resource} {isResource : Bool} {fault : Option ParseError}
    {aggregate : Except ParseError (Option Aggregate)} {cast : Option String}
    (h : (suffixItem resource isResource fault aggregate cast).errors = []) :
    fault = none ∧
      ((isResource = true ∧ aggregate = .ok none ∧ cast = none ∧
          suffixItem resource isResource fault aggregate cast = .bare resource) ∨
        (isResource = false ∧ ∃ function, aggregate = .ok function ∧
          suffixItem resource isResource fault aggregate cast =
            .column ⟨resource.name, resource.label, cast, function, resource.span⟩)) := by
  cases aggregate with
  | error e => cases isResource <;> simp [suffixItem] at h
  | ok function =>
    cases isResource with
    | false =>
      obtain ⟨rfl, -⟩ := errors_itemOr_eq_nil_iff.1 h
      exact ⟨rfl, Or.inr ⟨rfl, function, rfl, rfl⟩⟩
    | true =>
      obtain ⟨hfault, -⟩ := errors_itemOr_eq_nil_iff.1 h
      obtain ⟨rfl, hplaced⟩ := Option.or_eq_none_iff.1 hfault
      obtain ⟨rfl, rfl⟩ : function = none ∧ cast = none := by simpa using hplaced
      exact ⟨rfl, Or.inl ⟨rfl, rfl, rfl, rfl⟩⟩

theorem readSuffix_clean {resource : Resource} (hspan : resource.span = {}) {isResource : Bool}
    {fault : Option ParseError} {item : SelectItem}
    (h : readSuffix resource isResource fault (ofKinds ks d) = .ok item q)
    (hclean : item.errors = []) :
    fault = none ∧
      ((isResource = true ∧ item = .bare resource ∧ q = ofKinds ks d) ∨
        (isResource = false ∧ ∃ aggregate cast rest,
          ks = aggregateTokens aggregate ++ (castTokens cast ++ rest) ∧
          item = .column ⟨resource.name, resource.label, cast, aggregate, {}⟩ ∧
          q = ofKinds rest d)) := by
  obtain ⟨aggregate, r, haggregate, h⟩ := bind_eq_ok_iff.1 h
  obtain ⟨cast, r', hcast, h⟩ := bind_eq_ok_iff.1 h
  obtain ⟨_, _, hget, h⟩ := bind_eq_ok_iff.1 h
  obtain ⟨rfl, rfl⟩ := get_eq_ok_iff.1 hget
  obtain ⟨rfl, rfl⟩ := pure_eq_ok_iff.1 h
  obtain ⟨rfl, ⟨rfl, rfl, rfl, hitem⟩ | ⟨rfl, function, rfl, hitem⟩⟩ := suffixItem_clean hclean
  all_goals
    obtain ⟨ks, rfl, rfl⟩ := readAggregate_eq_ok haggregate
    obtain ⟨rest, rfl, rfl⟩ := readCast_eq_ok hcast
    rw [previous_ofKinds, cover_unplaced hspan] at hitem ⊢
  · refine ⟨rfl, Or.inl ⟨rfl, ?_, rfl⟩⟩
    rw [hitem, ← hspan]
  · exact ⟨rfl, Or.inr ⟨rfl, function, cast, rest, rfl, hitem, rfl⟩⟩

/-- A resource without parentheses may have a fault in front of it. -/
theorem readSuffix_bare {resource : Resource} (hspan : resource.span = {})
    {fault : Option ParseError} (hdot : ks.head? ≠ some .dot)
    (hcast : ks.head? ≠ some .doubleColon) :
    readSuffix resource true fault (ofKinds ks d) =
      .ok (itemOr fault (.bare resource)) (ofKinds ks d) := by
  refine (bind_of_ok (readAggregate_append none hdot)).trans ?_
  refine (bind_of_ok (readCast_append none hcast)).trans ?_
  refine (bind_of_ok (m := get) rfl).trans ?_
  rw [previous_ofKinds, cover_unplaced hspan, ← hspan]
  show EStateM.Result.ok (itemOr (fault.or none) _) _ = _
  rw [Option.or_none]

theorem readSuffix_column {resource : Resource} (hspan : resource.span = {})
    {aggregate : Option Aggregate} {cast : Option String}
    (hdot : rest.head? ≠ some .dot) (hcast : rest.head? ≠ some .doubleColon) :
    readSuffix resource false none
        (ofKinds (aggregateTokens aggregate ++ (castTokens cast ++ rest)) d) =
      .ok (.column ⟨resource.name, resource.label, cast, aggregate, {}⟩) (ofKinds rest d) := by
  have hdot' : (castTokens cast ++ rest).head? ≠ some .dot := by
    cases cast with
    | none => exact hdot
    | some target => exact nofun
  refine (bind_of_ok (readAggregate_append aggregate hdot')).trans ?_
  refine (bind_of_ok (readCast_append cast hcast)).trans ?_
  refine (bind_of_ok (m := get) rfl).trans ?_
  rw [previous_ofKinds, cover_unplaced hspan]
  rfl

/-! ### The head as a whole -/

/-- What the head of an item may be on tokens without a fault: a whole item that is no block, or
what stands before the list of a block. -/
inductive ReadsHead (d : Nat) : List TokenKind → Head → List TokenKind → Prop
  | complete {used : List TokenKind} {item : SelectItem} (hitem : DerivesItem used item)
      (hnesting : item.nesting = 0) (rest : List TokenKind) :
      ReadsHead d (used ++ rest) (.complete item) rest
  | opening {label : Option String} {name : String} {names : List String} {join : JoinModifier}
      {hint : Option String} {rest : List TokenKind} (hmean : ModifiersMean names join hint)
      (hcount : ¬(name = "count" ∧ names = [] ∧ rest.head? = some .rightParen))
      (hdepth : d < maxDepth) :
      ReadsHead d
        (aliasTokens label ++ .identifier name :: (modifiersTokens names ++ .leftParen :: rest))
        (.opening { name, label, hint, join, span := {} } none) rest

/-- The head of an item behind its name and modifiers. -/
theorem readBody_clean {label : Option String} {name : String} {names : List String}
    {join : JoinModifier} {hint : Option String} {fault : Option ParseError} {hd : Head}
    (h : readBody { name, label, hint, join, span := {} } (!(unplaced names).isEmpty) fault
      (ofKinds ks d) = .ok hd q) (hclean : hd.IsClean)
    (hmean : fault = none → ModifiersMean names join hint) :
    ∃ rest, ReadsHead d (aliasTokens label ++ .identifier name :: (modifiersTokens names ++ ks)) hd
      rest ∧ q = ofKinds rest d ∧ fault = none := by
  obtain ⟨found, r, hfound, h⟩ := bind_eq_ok_iff.1 h
  obtain ⟨rfl, ks, rfl, rfl⟩ | ⟨rfl, -, rfl⟩ := accept_eq_ok (by decide) hfound
  · obtain ⟨rfl, hcount | hblock⟩ := readOpening_clean rfl h hclean
    · obtain ⟨hcount, cast, rest, rfl, rfl, rfl⟩ := hcount
      obtain ⟨rfl, hempty⟩ : name = "count" ∧ (unplaced names).isEmpty = true := by
        simpa using hcount
      obtain rfl := isEmpty_unplaced_iff.1 hempty
      refine ⟨rest, ?_, rfl, rfl⟩
      simpa using ReadsHead.complete (d := d) (.count label cast) rfl rest
    · obtain ⟨hcount, hdepth, rfl, rfl⟩ := hblock
      refine ⟨ks, .opening (hmean rfl) (fun ⟨hname, hnil, hhead⟩ => hcount ⟨?_, hhead⟩) hdepth,
        rfl, rfl⟩
      simp [hname, isEmpty_unplaced_iff.2 hnil]
  · obtain ⟨item, r, hitem, h⟩ := bind_eq_ok_iff.1 h
    obtain ⟨rfl, rfl⟩ := pure_eq_ok_iff.1 h
    obtain ⟨rfl, ⟨hresource, rfl, rfl⟩ | hcolumn⟩ := readSuffix_clean rfl hitem hclean
    · have hnil : names ≠ [] := fun hnil => by simp [isEmpty_unplaced_iff.2 hnil] at hresource
      refine ⟨ks, ?_, rfl, rfl⟩
      simpa using ReadsHead.complete (d := d) (.bare label name hnil (hmean rfl)) rfl ks
    · obtain ⟨hplain, aggregate, cast, rest, rfl, rfl, rfl⟩ := hcolumn
      obtain rfl := isEmpty_unplaced_iff.1 (by simpa using hplain)
      refine ⟨rest, ?_, rfl, rfl⟩
      simpa using ReadsHead.complete (d := d) (.column label name aggregate cast) rfl rest

/-- A head without a fault reads what the grammar says. -/
theorem head_clean {hd : Head} (h : head (ofKinds ks d) = .ok hd q) (hclean : hd.IsClean) :
    ∃ rest, ReadsHead d ks hd rest ∧ q = ofKinds rest d := by
  obtain ⟨_, _, hget, h⟩ := bind_eq_ok_iff.1 h
  obtain ⟨rfl, rfl⟩ := get_eq_ok_iff.1 hget
  rw [span_current_ofKinds] at h
  obtain ⟨star, r, hstar, h⟩ := bind_eq_ok_iff.1 h
  obtain ⟨rfl, rest, rfl, rfl⟩ | ⟨rfl, -, rfl⟩ := accept_eq_ok (by decide) hstar
  · obtain ⟨rfl, rfl⟩ := pure_eq_ok_iff.1 h
    exact ⟨rest, .complete .wildcard rfl rest, rfl⟩
  obtain ⟨colon, r, hcolon, h⟩ := bind_eq_ok_iff.1 h
  obtain ⟨⟨label, name⟩, r', hname, h⟩ := bind_eq_ok_iff.1 h
  obtain ⟨modifiers, r'', hmodifiers, h⟩ := bind_eq_ok_iff.1 h
  obtain ⟨ks', hr⟩ : ∃ ks', r = ofKinds ks' d := by
    obtain ⟨-, rest, -, rfl⟩ | ⟨-, -, rfl⟩ := accept_eq_ok (by decide) hcolon <;> exact ⟨_, rfl⟩
  subst hr
  obtain ⟨ks'', rfl, -, rfl⟩ := readName_eq_ok hname
  obtain ⟨names, ks', rfl, rfl, rfl⟩ := readModifiers_eq_ok hmodifiers
  rcases hsaid : Modifiers.ofList (unplaced names) with ⟨join, hint, conflict⟩
  simp only [hsaid] at h
  obtain ⟨rest, hrest, rfl, hfault⟩ := readBody_clean h hclean fun hfault => by
    obtain ⟨-, rfl⟩ := Option.or_eq_none_iff.1 hfault
    simpa using Modifiers.ofList_eq_iff.1 hsaid
  -- An alias that is missing before its colon is a fault, so no colon was taken.
  obtain ⟨rfl, -⟩ | ⟨rfl, -, hsame⟩ := accept_eq_ok (by decide) hcolon
  · simp at hfault
  · obtain rfl := ofKinds_inj hsame
    exact ⟨rest, hrest, rfl⟩

/-- What may follow an item: the end, a comma or the parenthesis that closes a block. -/
def EndsItem (rest : List TokenKind) : Prop :=
  ∀ k, rest.head? = some k → k = .comma ∨ k = .rightParen

theorem EndsItem.head?_ne (h : EndsItem rest) (hcomma : k ≠ .comma) (hparen : k ≠ .rightParen) :
    rest.head? ≠ some k := fun heq => (h k heq).elim hcomma hparen

/-- A front is read up to its end. -/
theorem head_front (f : Front) (hcolon : rest.head? ≠ some .colon)
    (hbang : rest.head? ≠ some .bang) :
    head (ofKinds (f.tokens ++ rest) d) =
      readBody f.resource (!f.modifiers.isEmpty) f.fault (ofKinds rest d) := by
  obtain ⟨colon, label, name, modifiers⟩ := f
  have hfirst {k : TokenKind} (hk : k = .star ∨ k = .colon) :
      (aliasTokens label ++ .identifier name :: (modifiersTokens modifiers ++ rest)).head? ≠
        some k := by
    obtain rfl | rfl := hk <;> cases label <;> simp [aliasTokens]
  have hsecond : (modifiersTokens modifiers ++ rest).head? ≠ some .colon := by
    cases modifiers with
    | nil => exact hcolon
    | cons first more => simp
  have hempty : (!(unplaced modifiers).isEmpty) = !modifiers.isEmpty := by
    rw [unplaced, List.isEmpty_map]
  have hname : readName (ofKinds (aliasTokens label ++ .identifier name ::
      (modifiersTokens modifiers ++ rest)) d) = _ := readName_append fun _ => hsecond
  have hmodifiers : readModifiers (ofKinds (modifiersTokens modifiers ++ rest) d) = _ :=
    readModifiers_append hbang
  rw [← hempty]
  refine (bind_of_ok (m := get) rfl).trans ?_
  rw [span_current_ofKinds]
  cases colon with
  | true =>
    rw [Front.tokens, if_pos rfl, List.append_assoc, List.append_assoc, List.cons_append]
    refine (bind_of_ok (accept_miss (by decide) (by simp))).trans ?_
    refine (bind_of_ok accept_hit).trans ?_
    exact (bind_of_ok hname).trans (bind_of_ok hmodifiers)
  | false =>
    rw [Front.tokens, if_neg Bool.false_ne_true, List.nil_append, List.append_assoc,
      List.cons_append]
    refine (bind_of_ok (accept_miss (by decide) (hfirst (.inl rfl)))).trans ?_
    refine (bind_of_ok (accept_miss (by decide) (hfirst (.inr rfl)))).trans ?_
    exact (bind_of_ok hname).trans (bind_of_ok hmodifiers)

/-- The head of an item that begins with a name is read up to its modifiers. -/
theorem head_named (label : Option String) (name : String) {names : List String}
    {join : JoinModifier} {hint : Option String} (hmean : ModifiersMean names join hint)
    (rest : List TokenKind) (hcolon : rest.head? ≠ some .colon) (hbang : rest.head? ≠ some .bang) :
    head (ofKinds (aliasTokens label ++ .identifier name :: (modifiersTokens names ++ rest)) d) =
      readBody { name, label, hint, join, span := {} } (!(unplaced names).isEmpty) none
        (ofKinds rest d) := by
  have hsaid : Modifiers.ofList (unplaced names) = ⟨join, hint, none⟩ :=
    Modifiers.ofList_eq_iff.2 (by rwa [map_fst_unplaced])
  have hfront := head_front (d := d) ⟨false, label, name, names⟩ hcolon hbang
  have hresource : Front.resource ⟨false, label, name, names⟩ =
      { name, label, hint, join, span := {} } := by
    rw [Front.resource, Front.said, ← unplaced, hsaid]
  have hfault : Front.fault ⟨false, label, name, names⟩ = none := by
    rw [Front.fault, Front.said, ← unplaced, hsaid]
    rfl
  rw [hresource, hfault] at hfront
  simpa [Front.tokens, unplaced] using hfront

/-- An item of the grammar that is no block is read whole. -/
theorem head_complete {used : List TokenKind} {item : SelectItem} (hitem : DerivesItem used item)
    (hnesting : item.nesting = 0) (hrest : EndsItem rest) :
    head (ofKinds (used ++ rest) d) = .ok (.complete item) (ofKinds rest d) := by
  cases hitem with
  | wildcard =>
    refine (bind_of_ok (m := get) rfl).trans ?_
    exact bind_of_ok accept_hit
  | column label name aggregate cast =>
    have hnext {k : TokenKind} (hk : k = .colon ∨ k = .bang ∨ k = .leftParen) :
        (aggregateTokens aggregate ++ (castTokens cast ++ rest)).head? ≠ some k := by
      cases aggregate <;> cases cast <;>
        obtain rfl | rfl | rfl := hk <;>
        simp [aggregateTokens, castTokens, hrest.head?_ne]
    have hnamed := head_named (d := d) label name .nil _ (hnext (.inl rfl))
      (hnext (.inr (.inl rfl)))
    rw [List.append_assoc, List.cons_append, List.append_assoc]
    refine hnamed.trans ?_
    refine (bind_of_ok (accept_miss (by decide) (hnext (.inr (.inr rfl))))).trans ?_
    exact bind_of_ok (readSuffix_column rfl (hrest.head?_ne nofun nofun)
      (hrest.head?_ne nofun nofun))
  | count label cast =>
    have hnamed := head_named (d := d) label "count" .nil
      (.leftParen :: .rightParen :: (castTokens cast ++ rest)) (by simp) (by simp)
    rw [List.append_assoc, List.cons_append, List.cons_append, List.cons_append]
    refine hnamed.trans ?_
    refine (bind_of_ok accept_hit).trans ?_
    exact readOpening_count rfl (hrest.head?_ne nofun nofun)
  | @bare label name names _ _ hnames hmean =>
    have hnamed := head_named (d := d) label name hmean rest
      (hrest.head?_ne nofun nofun) (hrest.head?_ne nofun nofun)
    have hresource : (!(unplaced names).isEmpty) = true := by
      simpa using mt isEmpty_unplaced_iff.1 hnames
    rw [List.append_assoc, List.cons_append]
    refine hnamed.trans ?_
    rw [hresource]
    have hparen : rest.head? ≠ some .leftParen := hrest.head?_ne nofun nofun
    refine (bind_of_ok (accept_miss (by decide) hparen)).trans ?_
    exact bind_of_ok (readSuffix_bare rfl (hrest.head?_ne nofun nofun)
      (hrest.head?_ne nofun nofun))
  | block => cases hnesting

/-- A block of the grammar is read up to its list. -/
theorem head_opening (label : Option String) (name : String) {names : List String}
    {join : JoinModifier} {hint : Option String} (hmean : ModifiersMean names join hint)
    (rest : List TokenKind)
    (hcount : ¬(name = "count" ∧ names = [] ∧ rest.head? = some .rightParen))
    (hdepth : d < maxDepth) :
    head (ofKinds (aliasTokens label ++ .identifier name ::
        (modifiersTokens names ++ .leftParen :: rest)) d) =
      .ok (.opening { name, label, hint, join, span := {} } none) (ofKinds rest d) := by
  rw [head_named label name hmean _ (by simp) (by simp)]
  refine (bind_of_ok accept_hit).trans (readOpening_block ?_ hdepth)
  rintro ⟨hplain, hhead⟩
  obtain ⟨rfl, hempty⟩ : name = "count" ∧ (unplaced names).isEmpty = true := by simpa using hplain
  exact hcount ⟨rfl, isEmpty_unplaced_iff.1 hempty, hhead⟩

end Parser

end EmbedQuery
