import EmbedQuery.Proofs.Query.Survivors

/-!
# The canonical form is a normal form

Whatever the query, what reading leaves of it without its errors can be written (`Writable`): its
modifiers agree, its names are not empty and it is not too deep, also where the reading stopped
inside a block (`itemsFrom_writable`, by induction on the bound of the reader). The canonical tokens
of such items derive what `readBack` says they are read as (`Writable.readsBack`). So the canonical
form of any query is read without an error, and its own canonical form is the same again:
`canonical_parse_canonical`.
-/

namespace EmbedQuery

/-! ### Items that can be written -/

/-- The item can be written inside `d` blocks. It may be an empty block where the grammar has the
number of rows. -/
inductive SelectItem.Writable : Nat → SelectItem → Prop
  | complete {d : Nat} {used : List TokenKind} {item : SelectItem} (hitem : DerivesItem used item)
      (hread : ∀ k ∈ used, k.IsRead) (hnesting : item.nesting = 0) : Writable d item
  | block {d : Nat} (label : Option String) (name : String) {names : List String}
      {join : JoinModifier} {hint : Option String} {items : List SelectItem}
      (hmean : ModifiersMean names join hint)
      (hread : ∀ k ∈ aliasTokens label ++ .identifier name :: modifiersTokens names, k.IsRead)
      (hdepth : d < maxDepth) (hitems : ∀ item ∈ items, Writable (d + 1) item) :
      Writable d (.block { name, label, hint, join, span := {} } items)

/-- The canonical tokens of an item derive what it is read back as, which is not too deep inside `d`
blocks. -/
def SelectItem.ReadsBack (d : Nat) (item : SelectItem) : Prop :=
  ∃ ts, item.tokens = some ts ∧ DerivesItem ts item.readBack ∧
    d + item.readBack.nesting ≤ maxDepth ∧ ∀ k ∈ ts, k.IsRead

/-- The canonical tokens of a list derive what it is read back as, which is not too deep inside `d`
blocks. -/
structure ReadsBackList (d : Nat) (items : List SelectItem) : Prop where
  derives : DerivesList (listTokens items) (readBackList items)
  nesting : d + listNesting (readBackList items) ≤ maxDepth
  read : ∀ k ∈ listTokens items, k.IsRead

section

variable {d : Nat} {item : SelectItem} {items : List SelectItem}

theorem ReadsBackList.of_forall (hdepth : d ≤ maxDepth) (h : ∀ item ∈ items, item.ReadsBack d) :
    ReadsBackList d items := by
  induction items with
  | nil => exact ⟨.nil, hdepth, nofun⟩
  | cons item items ih =>
    obtain ⟨⟨ts, hts, hderives, hnesting, hread⟩, hitems⟩ := List.forall_mem_cons.1 h
    cases items with
    | nil =>
      rw [← listTokens_single hts] at hderives hread
      refine ⟨.single hderives, ?_, hread⟩
      rwa [readBackList, readBackList, listNesting_singleton]
    | cons next items =>
      have hmore := ih hitems
      have hne : itemTokens (next :: items) ≠ [] := by
        rw [← itemTokens_readBackList]
        exact hmore.derives.itemTokens_ne_nil
      have htokens := listTokens_cons hts hne
      refine ⟨?_, ?_, ?_⟩
      · rw [htokens]
        exact .cons hderives hmore.derives
      · rw [readBackList, listNesting, ← Nat.add_max_add_left]
        exact Nat.max_le.2 ⟨hnesting, hmore.nesting⟩
      · rw [htokens]
        intro k hk
        rcases List.mem_append.1 hk with hk | hk
        · exact hread k hk
        · rcases List.mem_cons.1 hk with rfl | hk
          · trivial
          · exact hmore.read k hk

theorem modifierNames_eq_nil {join : JoinModifier} {hint : Option String}
    (h : modifierNames join hint = []) : hint = none ∧ join = .default := by
  cases join <;> cases hint <;> simp_all [modifierNames, JoinModifier.name?]

/-- The canonical tokens of a block derive what it is read back as, if those of its list do. -/
theorem DerivesItem.readBack_block (label : Option String) (name : String) {names : List String}
    {join : JoinModifier} {hint : Option String} (hmean : ModifiersMean names join hint)
    (hlist : DerivesList (listTokens items) (readBackList items)) :
    DerivesItem
      (aliasTokens label ++ .identifier name ::
        (modifiersTokens (modifierNames join hint) ++
          .leftParen :: (listTokens items ++ [.rightParen])))
      (SelectItem.block { name, label, hint, join, span := {} } items).readBack := by
  rw [SelectItem.readBack]
  split
  · next h =>
    obtain ⟨⟨rfl, rfl, rfl⟩, hempty⟩ := h
    obtain rfl := List.isEmpty_iff.1 hempty
    exact .count label none
  · next h =>
    refine .block label name (hmean.congr hmean.mem_modifierNames_iff) ?_ hlist
    rintro ⟨hname, hmodifiers, htokens⟩
    obtain ⟨hhint, hjoin⟩ := modifierNames_eq_nil hmodifiers
    have hnil : items = [] := readBackList_eq_nil_iff.1 (hlist.eq_nil_iff.1 htokens)
    exact h ⟨⟨hname, hhint, hjoin⟩, List.isEmpty_iff.2 hnil⟩

/-- A block is at most one deeper than its list, read back like it. -/
theorem SelectItem.nesting_readBack_block_le (resource : Resource) (items : List SelectItem) :
    (SelectItem.block resource items).readBack.nesting ≤ listNesting (readBackList items) + 1 := by
  rw [SelectItem.readBack]
  split
  · exact Nat.zero_le _
  · exact Nat.le_refl _

/-- Only a block is read back as something else. -/
theorem SelectItem.readBack_of_nesting (h : item.nesting = 0) : item.readBack = item := by
  cases item with
  | block => cases h
  | _ => rfl

theorem SelectItem.Writable.readsBack (h : item.Writable d) (hdepth : d ≤ maxDepth) :
    item.ReadsBack d := by
  induction h with
  | complete hitem hread hnesting =>
    obtain ⟨ts, hts, hderives, hsubset⟩ := hitem.canonical
    refine ⟨ts, hts, ?_, ?_, fun k hk => hread k (hsubset hk)⟩
    · rwa [readBack_of_nesting hnesting]
    · rwa [readBack_of_nesting hnesting, hnesting]
  | @block d label name names join hint items hmean hread hlt _ ih =>
    have hlist := ReadsBackList.of_forall hlt fun item hitem => ih item hitem hlt
    have hnesting := nesting_readBack_block_le { name, label, hint, join, span := {} } items
    have hmodifiers : modifiersTokens (modifierNames join hint) ⊆ modifiersTokens names :=
      modifiersTokens_subset fun _ => (hmean.mem_modifierNames_iff _).1
    refine ⟨_, rfl, ?_, ?_, ?_⟩
    · rw [Resource.tokens_eq, List.append_assoc, List.cons_append]
      exact .readBack_block label name hmean hlist.derives
    · have hle := hlist.nesting
      omega
    · rw [Resource.tokens_eq]
      intro k hk
      have hitems : ∀ k ∈ [TokenKind.comma].intercalate (itemTokens items), k.IsRead := hlist.read
      simp only [List.mem_append, List.mem_cons, List.not_mem_nil, or_false] at hk hread
      rcases hk with (hk | hk | hk) | hk | hk | hk
      · exact hread k (Or.inl hk)
      · exact hread k (Or.inr (Or.inl hk))
      · exact hread k (Or.inr (Or.inr (hmodifiers hk)))
      · rw [hk]
        trivial
      · exact hitems k hk
      · rw [hk]
        trivial

end

/-! ### What reading leaves can be written -/

namespace Parser

variable {ks rest : List TokenKind} {d fuel : Nat} {p q : Parser}

/-- A parser that was reached from bare token kinds, and has no spans, stands before bare token
kinds. -/
theorem Reaches.eq_ofKinds (h : Reaches (ofKinds ks d) q)
    (hspans : q.mapSpans (fun _ => {}) = q) :
    ∃ rest, rest <:+ ks ∧ q = (ofKinds rest d).setHalted q.halted := by
  have heof : q.eof.kind = .eof := by rw [h.eof]; rfl
  have hsuffix := h.rest.map Token.kind
  rw [map_kind_ofKinds] at hsuffix
  refine ⟨q.rest.map Token.kind, hsuffix, ?_⟩
  have hq := mapSpans_eq_ofKinds heof
  rwa [hspans, h.depth] at hq

theorem mapSpans_ofKinds (ks : List TokenKind) (d : Nat) :
    (ofKinds ks d).mapSpans (fun _ => {}) = ofKinds ks d := by
  simp [mapSpans, ofKinds, Token.mapSpans]

theorem item_ofKinds (fuel : Nat) (ks : List TokenKind) (d : Nat) :
    ∃ rest, rest <:+ ks ∧ (item (itemsFrom fuel) (ofKinds ks d)).2 =
      (ofKinds rest d).setHalted (item (itemsFrom fuel) (ofKinds ks d)).2.halted := by
  have hmapped := item_mapSpans Span.joining_const_default
    (itemsFrom_mapSpans Span.joining_const_default fuel) (ofKinds ks d)
  rw [mapSpans_ofKinds] at hmapped
  have hspans := (congrArg Prod.snd hmapped).symm
  exact (item_reaches (itemsFrom_reaches fuel) _).eq_ofKinds hspans

theorem itemsFrom_ofKinds (fuel : Nat) (ks : List TokenKind) (d : Nat) :
    ∃ rest, rest <:+ ks ∧ (itemsFrom fuel (ofKinds ks d)).2 =
      (ofKinds rest d).setHalted (itemsFrom fuel (ofKinds ks d)).2.halted := by
  have hmapped := itemsFrom_mapSpans Span.joining_const_default fuel (ofKinds ks d)
  rw [mapSpans_ofKinds] at hmapped
  have hspans := (congrArg Prod.snd hmapped).symm
  exact (itemsFrom_reaches fuel _).eq_ofKinds hspans

/-! ### What is left of an item

An item that is read to its end before any list has no errors in it, or it is one itself. -/

theorem errors_itemOr (fault : Option ParseError) {item : SelectItem} (h : item.errors = []) :
    (itemOr fault item).errors = [] ∨ (itemOr fault item).survivor? = none := by
  cases fault with
  | none => exact Or.inl h
  | some e => exact Or.inr rfl

theorem errors_suffixItem (resource : Resource) (isResource : Bool) (fault : Option ParseError)
    (aggregate : Except ParseError (Option Aggregate)) (cast : Option String) :
    (suffixItem resource isResource fault aggregate cast).errors = [] ∨
      (suffixItem resource isResource fault aggregate cast).survivor? = none := by
  unfold suffixItem
  cases isResource <;> exact errors_itemOr _ rfl

theorem errors_of_head {i : SelectItem} (h : head p = .ok (.complete i) q) :
    i.errors = [] ∨ i.survivor? = none := by
  generalize hhead : Head.complete i = hd at h
  cases head_shape h with
  | wildcard =>
    cases hhead
    exact Or.inl rfl
  | count fault =>
    cases hhead
    exact errors_itemOr fault rfl
  | suffix =>
    cases hhead
    exact errors_suffixItem _ _ _ _ _
  | opening => cases hhead

/-- Nothing is left of a block with a fault. -/
theorem survivor?_close_some (resource : Resource) (e : ParseError) (items : List SelectItem)
    (p : Parser) : (close resource (some e) items p).1.survivor? = none := by
  unfold close
  split
  · rfl
  split <;> rfl

/-- What is left of a block, closed or not, is the block with what is left of its list. -/
theorem survivor?_close {resource : Resource} (hspan : resource.span = {})
    {items : List SelectItem} {b : Bool} {s : SelectItem}
    (h : (close resource none items ((ofKinds ks d).setHalted b)).1.survivor? = some s) :
    s = .block resource (survivors items) := by
  have hprevious : ((ofKinds ks d).setHalted b).previous = {} := rfl
  have hcurrent : ((ofKinds ks d).setHalted b).current.span = {} :=
    span_current_ofKinds (d := d)
  unfold close at h
  rw [hprevious, hcurrent, cover_unplaced hspan, ← hspan] at h
  split at h
  · cases h
    rfl
  split at h
  · cases h
    rfl
  · cases h

/-- What is left of an item that is no block is the item. -/
theorem eq_of_survivor? {item s : SelectItem} (hnesting : item.nesting = 0)
    (h : item.survivor? = some s) : s = item := by
  cases item with
  | block => cases hnesting
  | invalid => cases h
  | _ =>
    cases h
    rfl

/-- What is left of an item can be written, if that holds of the lists inside it. -/
theorem item_writable (hread : ∀ k ∈ ks, k.IsRead)
    (hitems : ∀ inner, (∀ k ∈ inner, k.IsRead) →
      ∀ s ∈ survivors (itemsFrom fuel (ofKinds inner (d + 1))).1, s.Writable (d + 1))
    {s : SelectItem} (hs : (item (itemsFrom fuel) (ofKinds ks d)).1.survivor? = some s) :
    s.Writable d := by
  match h : head (ofKinds ks d) with
  | .error e q =>
    rw [item_error h] at hs
    cases hs
  | .ok (.complete i) q =>
    rw [item_complete h] at hs
    obtain herrors | hnone := errors_of_head h
    · obtain ⟨rest, hhead, -⟩ := head_clean h herrors
      cases hhead with
      | complete hitem hnesting rest =>
        rw [eq_of_survivor? hnesting hs]
        exact .complete hitem (fun k hk => hread k (List.mem_append_left _ hk)) hnesting
    · cases hnone.symm.trans hs
  | .ok (.opening resource (some e)) q =>
    by_cases hparen : q.peek = .rightParen
    · rw [item_empty h hparen, survivor?_close_some] at hs
      cases hs
    · rw [item_block h hparen, survivor?_close_some] at hs
      cases hs
  | .ok (.opening resource none) q =>
    obtain ⟨rest, hhead, rfl⟩ := head_clean h rfl
    cases hhead with
    | @opening label name names join hint rest hmean hcount hdepth =>
      have hread' : ∀ k ∈ aliasTokens label ++ .identifier name :: modifiersTokens names,
          k.IsRead := by
        intro k hk
        apply hread
        rw [← List.cons_append, ← List.append_assoc]
        exact List.mem_append_left _ hk
      by_cases hparen : (ofKinds rest d).peek = .rightParen
      · rw [item_empty h hparen] at hs
        rw [survivor?_close (b := false) rfl hs]
        exact .block label name hmean hread' hdepth nofun
      · rw [item_block h hparen] at hs
        obtain ⟨behind, -, hplace⟩ := itemsFrom_ofKinds fuel rest (d + 1)
        have hleave : (itemsFrom fuel (ofKinds rest d).enter).2.leave = _ :=
          congrArg leave hplace
        rw [hleave] at hs
        rw [survivor?_close (d := d) rfl hs]
        refine .block label name hmean hread' hdepth (hitems rest fun k hk => hread k ?_)
        simp [hk]

/-- What is left of a list can be written, also where the reading stopped. -/
theorem itemsFrom_writable (hread : ∀ k ∈ ks, k.IsRead) :
    ∀ s ∈ survivors (itemsFrom fuel (ofKinds ks d)).1, s.Writable d := by
  induction fuel generalizing ks d with
  | zero => exact nofun
  | succ fuel ih =>
    have hitem : ∀ s, (item (itemsFrom fuel) (ofKinds ks d)).1.survivor? = some s →
        s.Writable d := fun s hs => item_writable hread (fun inner hinner => ih hinner) hs
    obtain ⟨rest, hsuffix, hplace⟩ := item_ofKinds fuel ks d
    rcases h : item (itemsFrom fuel) (ofKinds ks d) with ⟨i, q⟩
    rw [h] at hitem hplace
    by_cases hend : q.halted = true ∨ q.peek ≠ .comma
    · rw [itemsFrom_last h hend]
      intro s hs
      simp only [survivors, List.append_nil, Option.mem_toList] at hs
      exact hitem s hs
    · simp only [not_or, ne_eq, Decidable.not_not, Bool.not_eq_true] at hend
      obtain ⟨hhalted, hcomma⟩ := hend
      rw [itemsFrom_comma h hhalted hcomma]
      obtain rfl : q = ofKinds rest d := by rwa [hhalted] at hplace
      obtain ⟨more, rfl⟩ := eq_cons_of_peek (by decide) hcomma
      intro s hs
      simp only [survivors, List.mem_append, Option.mem_toList] at hs
      rcases hs with hs | hs
      · exact hitem s hs
      · refine ih (fun k hk => hread k ?_) s hs
        exact hsuffix.subset (List.mem_cons_of_mem _ hk)

/-- What is left of a query can be written. -/
theorem parse_writable (hread : ∀ k ∈ ks, k.IsRead) :
    ∀ s ∈ (ofKinds ks 0).parse.1.withoutErrors.items, s.Writable 0 := by
  have htop : ∀ s ∈ survivors (topItems (ofKinds ks 0)).1, s.Writable 0 := by
    unfold topItems
    split
    · exact nofun
    · exact itemsFrom_writable hread
  rw [parse_eq]
  split
  · exact htop
  · rw [QueryTree.withoutErrors, survivors_append]
    -- The error about the token that is left over is left out.
    have hinvalid (e : ParseError) : survivors [.invalid e []] = [] := rfl
    rwa [hinvalid, List.append_nil]

end Parser

/-! ### The canonical form of any query -/

theorem QueryTree.canonical_withoutErrors (t : QueryTree) :
    t.withoutErrors.canonical = t.canonical := by
  rw [canonical, canonical, listTokens, withoutErrors, itemTokens_survivors, listTokens]

theorem QueryTree.canonical_readBack (t : QueryTree) : t.readBack.canonical = t.canonical := by
  rw [canonical, canonical, listTokens, readBack, itemTokens_readBackList, listTokens]

/-- The canonical form of a query is read without errors, as what is left of the query and read
back. -/
theorem parse_canonical_readBack (query : String) :
    (QueryTree.parse (QueryTree.parse query).canonical).errors = [] ∧
      (QueryTree.parse (QueryTree.parse query).canonical).eraseSpans =
        (QueryTree.parse query).withoutErrors.readBack.eraseSpans := by
  let t := QueryTree.parse query
  have hwritable : ∀ s ∈ t.eraseSpans.withoutErrors.items, s.Writable 0 := by
    rw [Parser.eraseSpans_parse]
    exact Parser.parse_writable isRead_of_mem_kindsOf
  have hback : ReadsBackList 0 t.eraseSpans.withoutErrors.items :=
    .of_forall (Nat.zero_le _) fun s hs => (hwritable s hs).readsBack (Nat.zero_le _)
  have hkinds : kindsOf t.canonical.toList = listTokens t.eraseSpans.withoutErrors.items := by
    rw [← t.canonical_eraseSpans, ← t.eraseSpans.canonical_withoutErrors, QueryTree.canonical]
    exact hback.derives.kindsOf_spellings hback.read
  have hnesting := hback.nesting
  rw [Nat.zero_add] at hnesting
  rw [← QueryTree.readBack_withoutErrors_eraseSpans]
  refine (Parser.parse_eq_iff _ _).2 ⟨?_, hnesting⟩
  rw [hkinds]
  exact hback.derives

/-- The canonical form of a query is read as what is left of the query without its errors, up to
spans, except that a block under the bare name `count` that lost all its items is read as the number
of rows. It is read as just what is left exactly when there is no such block. -/
theorem parse_canonical_withoutErrors (query : String) :
    (QueryTree.parse (QueryTree.parse query).canonical).errors = [] ∧
      (QueryTree.parse (QueryTree.parse query).canonical).eraseSpans =
        (QueryTree.parse query).withoutErrors.readBack.eraseSpans ∧
      ((QueryTree.parse (QueryTree.parse query).canonical).eraseSpans =
          (QueryTree.parse query).withoutErrors.eraseSpans ↔
        ∀ item ∈ (QueryTree.parse query).items, ¬item.BecomesCount) := by
  obtain ⟨herrors, hreread⟩ := parse_canonical_readBack query
  refine ⟨herrors, hreread, ?_⟩
  rw [hreread]
  exact QueryTree.readBack_withoutErrors_iff _

/-- The only item of the block is an error, and what is left of the block is read as the number of
rows. -/
theorem parse_canonical_emptiedCount :
    (QueryTree.parse "count(:a)").errors ≠ [] ∧
      (QueryTree.parse (QueryTree.parse "count(:a)").canonical).eraseSpans ≠
        (QueryTree.parse "count(:a)").withoutErrors.eraseSpans := by
  refine ⟨by decide +kernel, fun heq => ?_⟩
  have hnodes := congrArg (fun t => t.arena.nodes.length) heq
  revert hnodes
  decide +kernel

/-- Some text is read as just what is left of a query exactly when no block in it becomes `count()`.
So where the canonical form is read as something else, any text is. -/
theorem exists_parse_eq_withoutErrors_iff (query : String) :
    (∃ text, (QueryTree.parse text).eraseSpans =
        (QueryTree.parse query).withoutErrors.eraseSpans) ↔
      ∀ item ∈ (QueryTree.parse query).items, ¬item.BecomesCount := by
  obtain ⟨-, hreread⟩ := parse_canonical_readBack query
  rw [← QueryTree.readBack_withoutErrors_iff]
  constructor
  · rintro ⟨text, htext⟩
    have herrors : (QueryTree.parse text).errors = [] := by
      rw [← QueryTree.errors_eraseSpans_eq_nil_iff, htext, QueryTree.errors_eraseSpans_eq_nil_iff]
      exact listErrors_survivors _
    -- The text has the canonical form of the query, and this is read as both.
    have hcanonical : (QueryTree.parse text).canonical = (QueryTree.parse query).canonical := by
      rw [← QueryTree.canonical_eraseSpans, htext, QueryTree.canonical_eraseSpans,
        QueryTree.canonical_withoutErrors]
    have hsame := (parse_canonical_eraseSpans herrors).2
    rw [hcanonical, hreread] at hsame
    exact hsame.trans htext
  · intro hsame
    exact ⟨_, hreread.trans hsame⟩

/-- The canonical form of any query is read without errors, and it is its own canonical form. -/
theorem canonical_parse_canonical (query : String) :
    (QueryTree.parse (QueryTree.parse query).canonical).errors = [] ∧
      (QueryTree.parse (QueryTree.parse query).canonical).canonical =
        (QueryTree.parse query).canonical := by
  obtain ⟨herrors, hreread⟩ := parse_canonical_readBack query
  refine ⟨herrors, ?_⟩
  rw [← QueryTree.canonical_eraseSpans, hreread, QueryTree.canonical_eraseSpans,
    QueryTree.canonical_readBack, QueryTree.canonical_withoutErrors]

end EmbedQuery
