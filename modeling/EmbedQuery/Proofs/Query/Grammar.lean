import EmbedQuery.Proofs.Query.Spans

/-!
# The grammar of select lists

    list      := empty | item (',' item)*
    item      := '*'
               | [name ':'] name modifier* '(' list ')'
               | [name ':'] name modifier+
               | [name ':'] name ['.' aggregate '(' ')'] ['::' name]
               | [name ':'] 'count' '(' ')' ['::' name]
    modifier  := '!' name

`DerivesItem` and `DerivesList` relate a sequence of token kinds to what it derives; the spans of
what is derived are left empty. The modifiers of an item have to agree (`ModifiersMean`), and a
`count` without modifiers before an empty pair of parentheses is the number of rows and no block.
How deep blocks lie in each other is told by `listNesting`.
-/

namespace EmbedQuery

/-- The tokens of modifiers, `!name` each. -/
def modifiersTokens (names : List String) : List TokenKind :=
  names.flatMap fun name => modifierTokens (some name)

@[simp] theorem modifiersTokens_nil : modifiersTokens [] = [] := rfl

@[simp] theorem modifiersTokens_cons (name : String) (names : List String) :
    modifiersTokens (name :: names) = .bang :: .identifier name :: modifiersTokens names := rfl

/-- The modifiers of these names agree on a join and a hint: `inner` and `left` say how to join and
every other name is the hint. -/
structure ModifiersMean (names : List String) (join : JoinModifier) (hint : Option String) :
    Prop where
  inner_iff : "inner" ∈ names ↔ join = .inner
  left_iff : "left" ∈ names ↔ join = .left
  hint_iff : ∀ name, name ∈ names ∧ name ≠ "inner" ∧ name ≠ "left" ↔ hint = some name

mutual

/-- The token kinds of one item. -/
inductive DerivesItem : List TokenKind → SelectItem → Prop
  | wildcard : DerivesItem [.star] (.wildcard {})
  | column (label : Option String) (name : String) (aggregate : Option Aggregate)
      (cast : Option String) :
      DerivesItem
        (aliasTokens label ++ .identifier name :: (aggregateTokens aggregate ++ castTokens cast))
        (.column { name, label, cast, aggregate, span := {} })
  | count (label cast : Option String) :
      DerivesItem
        (aliasTokens label ++ .identifier "count" :: .leftParen :: .rightParen :: castTokens cast)
        (.count label cast {})
  | bare (label : Option String) (name : String) {names : List String} {join : JoinModifier}
      {hint : Option String} (hnames : names ≠ []) (hmean : ModifiersMean names join hint) :
      DerivesItem (aliasTokens label ++ .identifier name :: modifiersTokens names)
        (.bare { name, label, hint, join, span := {} })
  | block (label : Option String) (name : String) {names : List String} {join : JoinModifier}
      {hint : Option String} {ks : List TokenKind} {items : List SelectItem}
      (hmean : ModifiersMean names join hint)
      (hcount : ¬(name = "count" ∧ names = [] ∧ ks = [])) (hlist : DerivesList ks items) :
      DerivesItem
        (aliasTokens label ++ .identifier name ::
          (modifiersTokens names ++ .leftParen :: (ks ++ [.rightParen])))
        (.block { name, label, hint, join, span := {} } items)

/-- The token kinds of a list. -/
inductive DerivesList : List TokenKind → List SelectItem → Prop
  | nil : DerivesList [] []
  | single {ks : List TokenKind} {item : SelectItem} (hitem : DerivesItem ks item) :
      DerivesList ks [item]
  | cons {ks more : List TokenKind} {item next : SelectItem} {items : List SelectItem}
      (hitem : DerivesItem ks item) (hmore : DerivesList more (next :: items)) :
      DerivesList (ks ++ .comma :: more) (item :: next :: items)

end

mutual

/-- How many blocks lie in each other in an item. -/
def SelectItem.nesting : SelectItem → Nat
  | .wildcard _ | .column _ | .count .. | .bare _ | .invalid .. => 0
  | .block _ items => listNesting items + 1

/-- How many blocks lie in each other in a list. -/
def listNesting : List SelectItem → Nat
  | [] => 0
  | item :: items => max item.nesting (listNesting items)

end

@[simp] theorem listNesting_singleton (item : SelectItem) :
    listNesting [item] = item.nesting := by
  rw [listNesting, listNesting, Nat.max_zero]

/-- An item has tokens. -/
theorem DerivesItem.ne_nil {ks : List TokenKind} {item : SelectItem} (h : DerivesItem ks item) :
    ks ≠ [] := by
  cases h <;> simp

/-- Only the empty list has no tokens. -/
theorem DerivesList.eq_nil_iff {ks : List TokenKind} {items : List SelectItem}
    (h : DerivesList ks items) : ks = [] ↔ items = [] := by
  cases h with
  | nil => simp
  | single hitem => simp [hitem.ne_nil]
  | cons hitem hmore => simp

mutual

/-- What is derived has no errors. -/
theorem DerivesItem.errors_eq_nil {ks : List TokenKind} {item : SelectItem} :
    DerivesItem ks item → item.errors = []
  | .wildcard | .column .. | .count .. | .bare .. => rfl
  | .block _ _ _ _ hlist => hlist.errors_eq_nil

theorem DerivesList.errors_eq_nil {ks : List TokenKind} {items : List SelectItem} :
    DerivesList ks items → listErrors items = []
  | .nil => rfl
  | .single hitem => by rw [listErrors, hitem.errors_eq_nil, listErrors, List.append_nil]
  | .cons hitem hmore => by
    rw [listErrors, hitem.errors_eq_nil, hmore.errors_eq_nil, List.append_nil]

end

/-- An item begins with `*` or a name. -/
theorem DerivesItem.head?_eq {ks : List TokenKind} {item : SelectItem} (h : DerivesItem ks item) :
    ks.head? = some .star ∨ ∃ name, ks.head? = some (.identifier name) := by
  cases h with
  | wildcard => exact Or.inl rfl
  | column label | count label | bare label | block label => cases label <;> simp [aliasTokens]

/-- A list does not begin with the parenthesis that would close it. -/
theorem DerivesList.head?_ne {ks : List TokenKind} {items : List SelectItem}
    (h : DerivesList ks items) : ks.head? ≠ some .rightParen := by
  cases h with
  | nil => simp
  | single hitem | cons hitem =>
    obtain hstar | ⟨name, hname⟩ := hitem.head?_eq <;> simp [*]

/-! ### Parentheses -/

theorem count_modifiersTokens {k : TokenKind} (hk : k = .leftParen ∨ k = .rightParen)
    (names : List String) : (modifiersTokens names).count k = 0 := by
  induction names with
  | nil => rfl
  | cons name names ih => obtain rfl | rfl := hk <;> simpa using ih

/-- As many parentheses are closed as opened. -/
def Balanced (ks : List TokenKind) : Prop := ks.count .leftParen = ks.count .rightParen

instance (ks : List TokenKind) : Decidable (Balanced ks) := inferInstanceAs (Decidable (_ = _))

mutual

theorem DerivesItem.balanced {ks : List TokenKind} {item : SelectItem} :
    DerivesItem ks item → Balanced ks
  | .wildcard => rfl
  | .column label name aggregate cast => by
    cases label <;> cases aggregate <;> cases cast <;>
      simp [Balanced, aliasTokens, aggregateTokens, castTokens]
  | .count label cast => by
    cases label <;> cases cast <;> simp [Balanced, aliasTokens, castTokens]
  | .bare label name _ _ => by
    cases label <;> simp [Balanced, aliasTokens, count_modifiersTokens]
  | .block label name _ _ hlist => by
    have hlist := hlist.balanced
    cases label <;> simpa [Balanced, aliasTokens, count_modifiersTokens] using hlist

/-- In a list, as many parentheses are closed as opened. -/
theorem DerivesList.balanced {ks : List TokenKind} {items : List SelectItem} :
    DerivesList ks items → Balanced ks
  | .nil => rfl
  | .single hitem => hitem.balanced
  | .cons hitem hmore => by
    have hitem := hitem.balanced
    have hmore := hmore.balanced
    simp only [Balanced] at hitem hmore ⊢
    simp [hitem, hmore]

end

end EmbedQuery
