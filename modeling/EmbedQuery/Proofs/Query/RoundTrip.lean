import EmbedQuery.Proofs.Query.Exactness
import EmbedQuery.Proofs.Token.Spelling

/-!
# Reading the canonical form

The canonical form of a query is spelled from the tokens of its tree. These derive the same tree as
the tokens that were written (`DerivesList.canonical`), and they stay apart when spelled side by
side (`DerivesList.isChain`), so reading the canonical form gives the tree back: `parse_canonical`.
-/

namespace EmbedQuery

/-! ### The tokens of a tree derive it -/

/-- The names of the modifiers as the canonical form writes them. -/
def modifierNames (join : JoinModifier) (hint : Option String) : List String :=
  hint.toList ++ join.name?.toList

theorem modifiersTokens_modifierNames (join : JoinModifier) (hint : Option String) :
    modifiersTokens (modifierNames join hint) =
      modifierTokens hint ++ modifierTokens join.name? := by
  cases hint <;> cases join <;> rfl

namespace ModifiersMean

variable {names : List String} {join : JoinModifier} {hint : Option String}

/-- What modifiers mean depends only on which names there are. -/
theorem congr {more : List String} (h : ModifiersMean names join hint)
    (hmem : ∀ name, name ∈ more ↔ name ∈ names) : ModifiersMean more join hint where
  inner_iff := (hmem _).trans h.inner_iff
  left_iff := (hmem _).trans h.left_iff
  hint_iff name := by rw [hmem, h.hint_iff]

/-- The canonical form has the modifiers that were written, each once. -/
theorem mem_modifierNames_iff (h : ModifiersMean names join hint) (name : String) :
    name ∈ modifierNames join hint ↔ name ∈ names := by
  rw [modifierNames, List.mem_append, Option.mem_toList, Option.mem_toList, ← h.hint_iff]
  -- A name is `inner`, `left` or the hint, and the join says which of the first two there are.
  have hinner := h.inner_iff
  have hleft := h.left_iff
  cases join <;> grind [JoinModifier.name?]

theorem modifierNames_eq_nil_iff (h : ModifiersMean names join hint) :
    modifierNames join hint = [] ↔ names = [] := by
  simp only [List.eq_nil_iff_forall_not_mem, h.mem_modifierNames_iff]

end ModifiersMean

theorem modifiersTokens_subset {names more : List String} (h : names ⊆ more) :
    modifiersTokens names ⊆ modifiersTokens more := by
  intro k hk
  obtain ⟨name, hname, hk⟩ := List.mem_flatMap.1 hk
  exact List.mem_flatMap.2 ⟨name, h hname, hk⟩

theorem Resource.tokens_eq (r : Resource) :
    r.tokens = aliasTokens r.label ++ .identifier r.name ::
      modifiersTokens (modifierNames r.join r.hint) := by
  rw [tokens, modifiersTokens_modifierNames]

section

variable {ks : List TokenKind} {item : SelectItem} {items : List SelectItem}

theorem DerivesItem.tokens_ne_none (h : DerivesItem ks item) : item.tokens ≠ none := by
  cases h <;> exact nofun

theorem DerivesList.itemTokens_ne_nil (h : DerivesList ks (item :: items)) :
    itemTokens (item :: items) ≠ [] := by
  have htokens : item.tokens ≠ none := by
    cases h with
    | single hitem | cons hitem => exact hitem.tokens_ne_none
  rw [itemTokens]
  cases hitem : item.tokens with
  | none => exact absurd hitem htokens
  | some ts => exact List.cons_ne_nil _ _

end

theorem listTokens_single {item : SelectItem} {ts : List TokenKind} (h : item.tokens = some ts) :
    listTokens [item] = ts := by
  rw [listTokens, itemTokens, itemTokens, h]
  exact List.intercalate_singleton

theorem listTokens_cons {item : SelectItem} {items : List SelectItem} {ts : List TokenKind}
    (h : item.tokens = some ts) (hitems : itemTokens items ≠ []) :
    listTokens (item :: items) = ts ++ .comma :: listTokens items := by
  rw [listTokens, itemTokens, h]
  exact (List.intercalate_cons_of_ne_nil hitems).trans (by simp [listTokens])

mutual

/-- The canonical tokens of a derived item derive it, and they are among those that were written. -/
theorem DerivesItem.canonical {ks : List TokenKind} {item : SelectItem} :
    DerivesItem ks item → ∃ ts, item.tokens = some ts ∧ DerivesItem ts item ∧ ts ⊆ ks
  | .wildcard => ⟨_, rfl, .wildcard, List.Subset.refl _⟩
  | .column label name aggregate cast => ⟨_, rfl, .column .., List.Subset.refl _⟩
  | .count label cast => ⟨_, rfl, .count .., List.Subset.refl _⟩
  | @DerivesItem.bare label name names join hint hnames hmean => by
    have hnames' := mt hmean.modifierNames_eq_nil_iff.1 hnames
    refine ⟨_, rfl, ?_, ?_⟩
    · rw [Resource.tokens_eq]
      exact .bare label name hnames' (hmean.congr hmean.mem_modifierNames_iff)
    · rw [Resource.tokens_eq]
      have hmodifiers := modifiersTokens_subset fun _ => (hmean.mem_modifierNames_iff _).1
      grind
  | @DerivesItem.block label name names join hint ks items hmean hcount hlist => by
    obtain ⟨hderives, hsubset⟩ := DerivesList.canonical hlist
    -- The canonical tokens are no `count()`, since those that were written are none.
    have hcount' : ¬(name = "count" ∧ modifierNames join hint = [] ∧ listTokens items = []) := by
      rintro ⟨hname, hnil, htokens⟩
      refine hcount ⟨hname, hmean.modifierNames_eq_nil_iff.1 hnil, ?_⟩
      exact hlist.eq_nil_iff.2 (hderives.eq_nil_iff.1 htokens)
    refine ⟨_, rfl, ?_, ?_⟩
    · rw [Resource.tokens_eq, List.append_assoc, List.cons_append]
      exact .block label name (hmean.congr hmean.mem_modifierNames_iff) hcount' hderives
    · rw [Resource.tokens_eq, List.append_assoc, List.cons_append]
      have hmodifiers := modifiersTokens_subset fun _ => (hmean.mem_modifierNames_iff _).1
      have hlist : [TokenKind.comma].intercalate (itemTokens items) ⊆ ks := hsubset
      grind

/-- The canonical tokens of a derived list derive it, and they are among those that were written. -/
theorem DerivesList.canonical {ks : List TokenKind} {items : List SelectItem} :
    DerivesList ks items → DerivesList (listTokens items) items ∧ listTokens items ⊆ ks
  | .nil => ⟨.nil, List.nil_subset _⟩
  | .single hitem => by
    obtain ⟨ts, hts, hderives, hsubset⟩ := DerivesItem.canonical hitem
    rw [listTokens_single hts]
    exact ⟨.single hderives, hsubset⟩
  | .cons hitem hmore => by
    obtain ⟨ts, hts, hderives, hsubset⟩ := DerivesItem.canonical hitem
    obtain ⟨hderives', hsubset'⟩ := DerivesList.canonical hmore
    rw [listTokens_cons hts hmore.itemTokens_ne_nil]
    refine ⟨.cons hderives hderives', List.append_subset.2 ⟨?_, ?_⟩⟩
    · intro k hk
      exact List.mem_append_left _ (hsubset hk)
    · intro k hk
      exact List.mem_append_right _ (List.cons_subset_cons _ hsubset' hk)

end

/-! ### The tokens of a list stay apart -/

namespace TokenKind

variable {k : TokenKind} {ks more : List TokenKind}

/-- A mark other than colons, which stays apart from whatever stands beside it. -/
def IsMark (k : TokenKind) : Prop := k.asIdentifier = none ∧ k ≠ .colon ∧ k ≠ .doubleColon

theorem isChain_cons_mark (hk : k.IsMark) : (k :: ks).IsChain Apart ↔ ks.IsChain Apart := by
  cases ks with
  | nil => simp
  | cons k' ks => simp [Apart, hk.1, hk.2.1]

theorem isChain_append_mark (hk : k.IsMark) :
    (ks ++ k :: more).IsChain Apart ↔ ks.IsChain Apart ∧ more.IsChain Apart := by
  rw [List.isChain_append, isChain_cons_mark hk]
  refine and_congr_right fun _ => and_iff_left ?_
  rintro k' - _ ⟨⟩
  exact ⟨fun _ => hk.1, fun _ => hk.2⟩

theorem isChain_aliasTokens_append (label : Option String) {name : String}
    (h : (identifier name :: ks).IsChain Apart) :
    (aliasTokens label ++ .identifier name :: ks).IsChain Apart := by
  cases label with
  | none => exact h
  | some label => simpa [aliasTokens, Apart, asIdentifier] using h

theorem isChain_cons_modifiersTokens (name : String) (names : List String) :
    (identifier name :: modifiersTokens names).IsChain Apart := by
  induction names generalizing name with
  | nil => exact .singleton _
  | cons first names ih => simpa [Apart, asIdentifier] using ih first

end TokenKind

open TokenKind

mutual

theorem DerivesItem.isChain {ks : List TokenKind} {item : SelectItem} :
    DerivesItem ks item → ks.IsChain Apart
  | .wildcard => .singleton _
  | .column label name aggregate cast => by
    refine isChain_aliasTokens_append label ?_
    cases aggregate <;> cases cast <;> simp [aggregateTokens, castTokens, Apart, asIdentifier]
  | .count label cast => by
    refine isChain_aliasTokens_append label ?_
    cases cast <;> simp [castTokens, Apart, asIdentifier]
  | @DerivesItem.bare label name names _ _ _ _ =>
    isChain_aliasTokens_append label (isChain_cons_modifiersTokens name names)
  | @DerivesItem.block label name names _ _ ks items _ _ hlist => by
    refine isChain_aliasTokens_append label ?_
    have hmark : IsMark .leftParen := ⟨rfl, nofun, nofun⟩
    have hclose : IsMark .rightParen := ⟨rfl, nofun, nofun⟩
    rw [← List.cons_append, isChain_append_mark hmark, isChain_append_mark hclose]
    exact ⟨isChain_cons_modifiersTokens name names, DerivesList.isChain hlist, .nil⟩

/-- The tokens of a derived list stay apart when they are spelled side by side. -/
theorem DerivesList.isChain {ks : List TokenKind} {items : List SelectItem} :
    DerivesList ks items → ks.IsChain Apart
  | .nil => .nil
  | .single hitem => DerivesItem.isChain hitem
  | .cons hitem hmore => by
    have hcomma : IsMark .comma := ⟨rfl, nofun, nofun⟩
    rw [isChain_append_mark hcomma]
    exact ⟨DerivesItem.isChain hitem, DerivesList.isChain hmore⟩

end

mutual

theorem DerivesItem.error_not_mem {ks : List TokenKind} {item : SelectItem} (message : String) :
    DerivesItem ks item → .error message ∉ ks
  | .wildcard => by simp
  | .column label name aggregate cast => by
    cases label <;> cases aggregate <;> cases cast <;>
      simp [aliasTokens, aggregateTokens, castTokens]
  | .count label cast => by
    cases label <;> cases cast <;> simp [aliasTokens, castTokens]
  | .bare label name _ _ => by
    cases label <;> simp [aliasTokens, modifiersTokens, modifierTokens]
  | .block label name _ _ hlist => by
    have herror := DerivesList.error_not_mem message hlist
    cases label <;> simpa [aliasTokens, modifiersTokens, modifierTokens] using herror

/-- The grammar derives nothing from a piece that could not be read. -/
theorem DerivesList.error_not_mem {ks : List TokenKind} {items : List SelectItem}
    (message : String) : DerivesList ks items → .error message ∉ ks
  | .nil => by simp
  | .single hitem => DerivesItem.error_not_mem message hitem
  | .cons hitem hmore => by
    have herror := DerivesItem.error_not_mem message hitem
    have herror' := DerivesList.error_not_mem message hmore
    simp [herror, herror']

end

/-! ### The round trip -/

/-- The tokens of a derived list are read from their spellings. -/
theorem DerivesList.kindsOf_spellings {ks : List TokenKind} {items : List SelectItem}
    (h : DerivesList ks items) (hread : ∀ k ∈ ks, k.IsRead) :
    kindsOf (String.join (ks.map TokenKind.spelling)).toList = ks := by
  have hspelled : ∀ k ∈ ks, k.IsSpelled := fun k hk =>
    ⟨hread k hk, fun message heq => h.error_not_mem message (heq ▸ hk)⟩
  rw [String.toList_join, List.flatMap_map]
  exact EmbedQuery.kindsOf_spellings hspelled h.isChain

/-- The tokens of the canonical form of a derived query are those of its tree. -/
theorem kindsOf_canonical {ks : List TokenKind} {t : QueryTree} (h : DerivesList ks t.items)
    (hread : ∀ k ∈ ks, k.IsRead) : kindsOf t.canonical.toList = listTokens t.items := by
  obtain ⟨hderives, hsubset⟩ := h.canonical
  exact hderives.kindsOf_spellings fun k hk => hread k (hsubset hk)

theorem QueryTree.canonical_eraseSpans (t : QueryTree) : t.eraseSpans.canonical = t.canonical := by
  rw [canonical, canonical, listTokens, listTokens, eraseSpans, mapSpans, itemTokens_mapSpansList]

/-- The canonical form of a query without errors is read without errors, as the same tree. -/
theorem parse_canonical_eraseSpans {query : String} (h : (QueryTree.parse query).errors = []) :
    (QueryTree.parse (QueryTree.parse query).canonical).errors = [] ∧
      (QueryTree.parse (QueryTree.parse query).canonical).eraseSpans =
        (QueryTree.parse query).eraseSpans := by
  have hread := Parser.parse_eq_iff query (QueryTree.parse query).eraseSpans.items
  obtain ⟨hderives, hnesting⟩ := hread.1 ⟨h, rfl⟩
  refine (Parser.parse_eq_iff _ _).2 ⟨?_, hnesting⟩
  rw [← QueryTree.canonical_eraseSpans, kindsOf_canonical hderives isRead_of_mem_kindsOf]
  exact hderives.canonical.1

/-- Round trip: a query without errors and its canonical form are read as the same tree up to spans,
and numbered alike. -/
theorem parse_canonical (query : String) (h : (QueryTree.parse query).errors = []) :
    let t := QueryTree.parse query
    let reread := QueryTree.parse t.canonical
    reread.errors = [] ∧ reread.eraseSpans = t.eraseSpans ∧
      reread.arena.eraseSpans = t.arena.eraseSpans := by
  obtain ⟨herrors, htree⟩ := parse_canonical_eraseSpans h
  refine ⟨herrors, htree, ?_⟩
  rw [← QueryTree.arena_eraseSpans, htree, QueryTree.arena_eraseSpans]

/-- A name that needs quotes, a join before a hint, and `count` as a column, as the number of rows
and as a resource. -/
theorem parse_canonical_quoted :
    let t := QueryTree.parse "who: \"na\"\"me\" !left !key ( count, n:count(), count!inner ( ), * )"
    let reread := QueryTree.parse t.canonical
    t.errors = [] ∧ reread.errors = [] ∧ reread.eraseSpans = t.eraseSpans ∧
      reread.arena.eraseSpans = t.arena.eraseSpans := by
  have herrors : (QueryTree.parse
      "who: \"na\"\"me\" !left !key ( count, n:count(), count!inner ( ), * )").errors = [] := by
    decide +kernel
  exact ⟨herrors, parse_canonical _ herrors⟩

end EmbedQuery
