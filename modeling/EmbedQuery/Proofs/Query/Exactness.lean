import EmbedQuery.Proofs.Query.Head
import EmbedQuery.Proofs.Query.Steps
import EmbedQuery.Proofs.Token.Kinds

/-!
# The parser reads the grammar exactly

What the list reader reads without an error is derived by the grammar (`itemsFrom_clean`), and what
the grammar derives is read (`itemsFrom_derived`), up to a nesting of `maxDepth` blocks. Both are
shown on bare token kinds, the first by induction on the bound of the reader and the second on the
derivation; `item_reads` tells how an item is read that has no error. Since reading does not look at
spans, both carry over to the tokens of a query: `parse_eq_iff` is the result for trees and
`parseStrict_eq_ok_iff` the one for strict reading.
-/

namespace EmbedQuery

namespace Parser

variable {ks rest : List TokenKind} {d fuel : Nat} {q : Parser}

/-- The kinds `ks` begin with an item that `rest` follows; inside `d` blocks it is not too deep. -/
def ReadsItem (d : Nat) (ks : List TokenKind) (item : SelectItem) (rest : List TokenKind) : Prop :=
  ∃ used, ks = used ++ rest ∧ DerivesItem used item ∧ d + item.nesting ≤ maxDepth

/-- The kinds `ks` begin with a list that `rest` follows; inside `d` blocks it is not too deep. -/
def ReadsList (d : Nat) (ks : List TokenKind) (items : List SelectItem) (rest : List TokenKind) :
    Prop :=
  ∃ used, ks = used ++ rest ∧ DerivesList used items ∧ d + listNesting items ≤ maxDepth

/-! ### What is read without an error is derived -/

/-- A block without an error has none in its list. -/
theorem close_errors {resource : Resource} {fault : Option ParseError} {items : List SelectItem}
    {p : Parser} (h : (close resource fault items p).1.errors = []) :
    fault = none ∧ listErrors items = [] := by
  unfold close at h
  split at h
  · exact errors_itemOr_eq_nil_iff.1 h
  split at h
  · exact errors_itemOr_eq_nil_iff.1 h
  · cases h

/-- A block without an error is closed. -/
theorem close_clean {resource : Resource} (hspan : resource.span = {}) {fault : Option ParseError}
    {items : List SelectItem} (hclean : (close resource fault items (ofKinds ks d)).1.errors = []) :
    ∃ rest, ks = .rightParen :: rest ∧
      close resource fault items (ofKinds ks d) = (.block resource items, ofKinds rest d) := by
  obtain ⟨rfl, -⟩ := close_errors hclean
  have hopen : ¬(ofKinds ks d).halted = true := nofun
  unfold close at hclean ⊢
  rw [if_neg hopen] at hclean ⊢
  by_cases hparen : (ofKinds ks d).peek = .rightParen
  · obtain ⟨rest, rfl⟩ := eq_cons_of_peek (by decide) hparen
    rw [if_pos hparen, span_current_ofKinds, cover_unplaced hspan, ← hspan]
    exact ⟨rest, rfl, rfl⟩
  · rw [if_neg hparen] at hclean
    cases hclean

/-- A block whose list is derived and that is closed without an error is derived. -/
theorem block_clean {label : Option String} {name : String} {names : List String}
    {join : JoinModifier} {hint : Option String} {items : List SelectItem}
    (hlist : ReadsList (d + 1) ks items rest) (hmean : ModifiersMean names join hint)
    (hcount : ¬(name = "count" ∧ names = [] ∧ items = []))
    (hclean : (close { name, label, hint, join, span := {} } none items
      (ofKinds rest d)).1.errors = []) :
    ∃ more,
      ReadsItem d
        (aliasTokens label ++ .identifier name :: (modifiersTokens names ++ .leftParen :: ks))
        (close { name, label, hint, join, span := {} } none items (ofKinds rest d)).1 more ∧
      (close { name, label, hint, join, span := {} } none items (ofKinds rest d)).2 =
        ofKinds more d := by
  obtain ⟨used, rfl, hderives, hnesting⟩ := hlist
  obtain ⟨more, rfl, hclose⟩ := close_clean rfl hclean
  rw [hclose]
  have hblock := DerivesItem.block label name hmean
    (fun ⟨hname, hnames, hused⟩ => hcount ⟨hname, hnames, hderives.eq_nil_iff.1 hused⟩) hderives
  refine ⟨more, ⟨_, ?_, hblock, ?_⟩, rfl⟩
  · simp
  · rw [SelectItem.nesting]
    omega

theorem head_setHalted_ok {p : Parser} {hd : Head} (b : Bool) (h : head p = .ok hd q) :
    head (p.setHalted b) = .ok hd (q.setHalted b) := by
  have hflag := (head_reads p).flag b
  rwa [h] at hflag

theorem head_setHalted_error {p : Parser} {e : ParseError} (b : Bool) (h : head p = .error e q) :
    head (p.setHalted b) = .error e (q.setHalted b) := by
  have hflag := (head_reads p).flag b
  rwa [h] at hflag

/-- How an item without an error is read inside `d` blocks, with `items` reading the lists of blocks
and `b` telling whether the parser is halted. The list of a block is not entered when the block is
closed at once. -/
inductive ReadsClean (items : Parser → List SelectItem × Parser) (b : Bool) (d : Nat) :
    List TokenKind → SelectItem × Parser → Prop
  | complete {used : List TokenKind} {item : SelectItem} (hitem : DerivesItem used item)
      (hnesting : item.nesting = 0) (rest : List TokenKind) :
      ReadsClean items b d (used ++ rest) (item, (ofKinds rest d).setHalted b)
  | empty (label : Option String) (name : String) {names : List String} {join : JoinModifier}
      {hint : Option String} {rest : List TokenKind} (hmean : ModifiersMean names join hint)
      (hcount : ¬(name = "count" ∧ names = [])) (hdepth : d < maxDepth) :
      ReadsClean items b d
        (aliasTokens label ++ .identifier name ::
          (modifiersTokens names ++ .leftParen :: .rightParen :: rest))
        (close { name, label, hint, join, span := {} } none []
          ((ofKinds (.rightParen :: rest) d).setHalted b))
  | block (label : Option String) (name : String) {names : List String} {join : JoinModifier}
      {hint : Option String} {inner : List TokenKind} (hmean : ModifiersMean names join hint)
      (hdepth : d < maxDepth)
      (hlist : listErrors (items ((ofKinds inner (d + 1)).setHalted b)).1 = []) :
      ReadsClean items b d
        (aliasTokens label ++ .identifier name :: (modifiersTokens names ++ .leftParen :: inner))
        (close { name, label, hint, join, span := {} } none
          (items ((ofKinds inner (d + 1)).setHalted b)).1
          (items ((ofKinds inner (d + 1)).setHalted b)).2.leave)

theorem item_reads {items : Parser → List SelectItem × Parser} {b : Bool}
    (hclean : (item items ((ofKinds ks d).setHalted b)).1.errors = []) :
    ReadsClean items b d ks (item items ((ofKinds ks d).setHalted b)) := by
  match h : head (ofKinds ks d) with
  | .error e q =>
    rw [item_error (head_setHalted_error b h)] at hclean
    cases hclean
  | .ok (.complete i) q =>
    rw [item_complete (head_setHalted_ok b h)] at hclean ⊢
    obtain ⟨rest, hreads, rfl⟩ := head_clean h hclean
    cases hreads with
    | complete hitem hnesting => exact .complete hitem hnesting rest
  | .ok (.opening resource fault) q =>
    have hhead := head_setHalted_ok b h
    by_cases hparen : q.peek = .rightParen
    · rw [item_empty hhead hparen] at hclean ⊢
      obtain ⟨rfl, -⟩ := close_errors hclean
      obtain ⟨inner, hreads, rfl⟩ := head_clean h rfl
      obtain ⟨rest, rfl⟩ := eq_cons_of_peek (by decide) hparen
      cases hreads with
      | opening hmean hcount hdepth =>
        exact .empty _ _ hmean (fun ⟨hname, hnames⟩ => hcount ⟨hname, hnames, rfl⟩) hdepth
    · rw [item_block hhead hparen] at hclean ⊢
      obtain ⟨rfl, hlist⟩ := close_errors hclean
      obtain ⟨inner, hreads, rfl⟩ := head_clean h rfl
      cases hreads with
      | opening hmean hcount hdepth => exact .block _ _ hmean hdepth hlist

/-- An item read without an error is derived, if the list inside it is. -/
theorem item_clean (items : Parser → List SelectItem × Parser)
    (hitems : ∀ inner : List TokenKind, inner.length < ks.length → d + 1 ≤ maxDepth →
      listErrors (items (ofKinds inner (d + 1))).1 = [] →
      ∃ rest, ReadsList (d + 1) inner (items (ofKinds inner (d + 1))).1 rest ∧
        (items (ofKinds inner (d + 1))).1 ≠ [] ∧
        (items (ofKinds inner (d + 1))).2 = ofKinds rest (d + 1))
    (hclean : (item items (ofKinds ks d)).1.errors = []) (hdepth : d ≤ maxDepth) :
    ∃ rest, ReadsItem d ks (item items (ofKinds ks d)).1 rest ∧
      (item items (ofKinds ks d)).2 = ofKinds rest d := by
  have hread : ReadsClean items false d ks (item items (ofKinds ks d)) := item_reads hclean
  generalize item items (ofKinds ks d) = read at hclean hread ⊢
  cases hread with
  | complete hitem hnesting rest =>
    exact ⟨rest, ⟨_, rfl, hitem, by rw [hnesting]; exact hdepth⟩, rfl⟩
  | empty label name hmean hcount hdepth =>
    exact block_clean ⟨[], rfl, .nil, hdepth⟩ hmean
      (fun ⟨hname, hnames, _⟩ => hcount ⟨hname, hnames⟩) hclean
  | @block label name names join hint inner hmean hdepth hlist =>
    obtain ⟨rest, hreads, hne, hq⟩ := hitems inner (by simp; omega) hdepth hlist
    have hleave : (items ((ofKinds inner (d + 1)).setHalted false)).2.leave = ofKinds rest d :=
      congrArg leave hq
    rw [hleave] at hclean ⊢
    exact block_clean hreads hmean (fun ⟨_, _, hnil⟩ => hne hnil) hclean

/-- A list read without an error is derived; the bound is large enough for every list inside. -/
theorem itemsFrom_clean (hfuel : ks.length < fuel) (hdepth : d ≤ maxDepth)
    (hclean : listErrors (itemsFrom fuel (ofKinds ks d)).1 = []) :
    ∃ rest, ReadsList d ks (itemsFrom fuel (ofKinds ks d)).1 rest ∧
      (itemsFrom fuel (ofKinds ks d)).1 ≠ [] ∧
      (itemsFrom fuel (ofKinds ks d)).2 = ofKinds rest d := by
  induction fuel generalizing ks d with
  | zero => cases hfuel
  | succ fuel ih =>
    -- A block is entered behind its opening parenthesis, so fewer tokens are left inside.
    have hitem := @item_clean ks d (itemsFrom fuel)
      fun inner hinner hdepth hclean => ih (by omega) hdepth hclean
    rcases hread : item (itemsFrom fuel) (ofKinds ks d) with ⟨i, q⟩
    rw [hread] at hitem
    by_cases hend : q.halted = true ∨ q.peek ≠ .comma
    · rw [itemsFrom_last hread hend] at hclean ⊢
      obtain ⟨rest, ⟨used, rfl, hderives, hnesting⟩, hq⟩ :=
        hitem (by simpa [listErrors] using hclean) hdepth
      exact ⟨rest, ⟨used, rfl, .single hderives, by rwa [listNesting_singleton]⟩,
        List.cons_ne_nil _ _, hq⟩
    · simp only [not_or, Bool.not_eq_true, ne_eq, Decidable.not_not] at hend
      rw [itemsFrom_comma hread hend.1 hend.2] at hclean ⊢
      obtain ⟨hi, hmore⟩ := List.append_eq_nil_iff.1 hclean
      obtain ⟨rest, ⟨used, rfl, hderives, hnesting⟩, rfl⟩ := hitem hi hdepth
      obtain ⟨more, rfl⟩ := eq_cons_of_peek (by decide) hend.2
      simp only [advance_ofKinds] at hmore ⊢
      simp only [List.length_append, List.length_cons] at hfuel
      obtain ⟨rest, ⟨used', rfl, hderives', hnesting'⟩, hne, hq⟩ := ih (by omega) hdepth hmore
      obtain ⟨next, items, hitems⟩ := List.exists_cons_of_ne_nil hne
      rw [hitems] at hderives' hnesting' ⊢
      refine ⟨rest, ⟨_, ?_, .cons hderives hderives', ?_⟩, List.cons_ne_nil _ _, hq⟩
      · simp
      · rw [listNesting, ← Nat.add_max_add_left]
        exact Nat.max_le.2 ⟨hnesting, hnesting'⟩

/-! ### What is derived is read -/

theorem close_ofKinds {resource : Resource} (hspan : resource.span = {})
    (fault : Option ParseError) (items : List SelectItem) :
    close resource fault items (ofKinds (.rightParen :: rest) d) =
      (itemOr fault (.block resource items), ofKinds rest d) := by
  have hparen : (ofKinds (.rightParen :: rest) d).peek = .rightParen := rfl
  unfold close
  rw [if_neg (show ¬(ofKinds _ d).halted = true from nofun), if_pos hparen, span_current_ofKinds,
    cover_unplaced hspan, ← hspan]
  rfl

theorem endsItem_rightParen : EndsItem (.rightParen :: rest) :=
  fun _ h => Or.inr (Option.some.inj h).symm

theorem endsItem_comma : EndsItem (.comma :: rest) :=
  fun _ h => Or.inl (Option.some.inj h).symm

/-- A derived block is read up to its list, which is empty when its closing parenthesis comes
next. -/
theorem head_block (label : Option String) (name : String) {names : List String}
    {join : JoinModifier} {hint : Option String} {inner : List TokenKind} {items : List SelectItem}
    (hmean : ModifiersMean names join hint)
    (hcount : ¬(name = "count" ∧ names = [] ∧ inner = [])) (hlist : DerivesList inner items)
    (rest : List TokenKind) (hdepth : d < maxDepth) :
    head (ofKinds (aliasTokens label ++ .identifier name ::
        (modifiersTokens names ++ .leftParen :: (inner ++ .rightParen :: rest))) d) =
      .ok (.opening { name, label, hint, join, span := {} } none)
        (ofKinds (inner ++ .rightParen :: rest) d) ∧
      ((ofKinds (inner ++ .rightParen :: rest) d).peek = .rightParen ↔ items = []) := by
  have hfirst : (inner ++ .rightParen :: rest).head? = some .rightParen ↔ inner = [] := by
    cases inner with
    | nil => simp
    | cons k inner =>
      have hne : k ≠ .rightParen := fun heq => hlist.head?_ne (congrArg some heq)
      simp [hne]
  refine ⟨head_opening label name hmean _
    (fun ⟨hname, hnames, hparen⟩ => hcount ⟨hname, hnames, hfirst.1 hparen⟩) hdepth, ?_⟩
  rw [← hlist.eq_nil_iff, ← hfirst, peek_ofKinds]
  cases inner <;> simp

mutual

/-- A derived item is read, and what follows it is left over. -/
theorem item_derived {ks rest : List TokenKind} {i : SelectItem} {d fuel : Nat}
    (hrest : EndsItem rest) : DerivesItem ks i → d + i.nesting ≤ maxDepth → ks.length ≤ fuel →
      item (itemsFrom fuel) (ofKinds (ks ++ rest) d) = (i, ofKinds rest d)
  | @DerivesItem.block label name names join hint inner items hmean hcount hlist, hnesting,
      hfuel => by
    rw [SelectItem.nesting] at hnesting
    simp only [List.append_assoc, List.cons_append, List.nil_append, List.length_append,
      List.length_cons] at hfuel ⊢
    obtain ⟨hhead, hpeek⟩ := head_block label name hmean hcount hlist rest (d := d) (by omega)
    -- As in `item_clean`, an empty block is closed without entering its list.
    by_cases hempty : items = []
    · rw [item_empty hhead (hpeek.2 hempty)]
      obtain rfl := hempty
      obtain rfl := hlist.eq_nil_iff.2 rfl
      exact close_ofKinds rfl none []
    · have hitems : itemsFrom fuel (ofKinds (inner ++ .rightParen :: rest) d).enter = _ :=
        itemsFrom_derived (d := d + 1) endsItem_rightParen (by simp) hlist hempty (by omega)
          (by omega)
      rw [item_block hhead (mt hpeek.1 hempty), hitems]
      exact close_ofKinds rfl none items
  | .wildcard, _, _ => item_complete (head_complete .wildcard rfl hrest)
  | .column label name aggregate cast, _, _ =>
    item_complete (head_complete (.column label name aggregate cast) rfl hrest)
  | .count label cast, _, _ => item_complete (head_complete (.count label cast) rfl hrest)
  | .bare label name hnames hmean, _, _ =>
    item_complete (head_complete (.bare label name hnames hmean) rfl hrest)

/-- A derived list is read, and what follows it is left over. -/
theorem itemsFrom_derived {ks rest : List TokenKind} {items : List SelectItem} {d fuel : Nat}
    (hrest : EndsItem rest) (hcomma : rest.head? ≠ some .comma) :
    DerivesList ks items → items ≠ [] → d + listNesting items ≤ maxDepth → ks.length < fuel →
      itemsFrom fuel (ofKinds (ks ++ rest) d) = (items, ofKinds rest d)
  | .nil, hne, _, _ => absurd rfl hne
  | .single hitem, _, hnesting, hfuel => by
    obtain ⟨fuel, rfl⟩ : ∃ n, fuel = n + 1 := ⟨fuel - 1, by omega⟩
    rw [listNesting_singleton] at hnesting
    refine itemsFrom_last (item_derived hrest hitem hnesting (by omega)) (Or.inr ?_)
    cases rest with
    | nil => exact nofun
    | cons k rest =>
      intro heq
      exact hcomma (congrArg some heq)
  | @DerivesList.cons ks more i next items hitem hmore, _, hnesting, hfuel => by
    obtain ⟨fuel, rfl⟩ : ∃ n, fuel = n + 1 := ⟨fuel - 1, by omega⟩
    rw [listNesting, ← Nat.add_max_add_left] at hnesting
    obtain ⟨hnesting, hnesting'⟩ := Nat.max_le.1 hnesting
    simp only [List.append_assoc, List.cons_append, List.length_append, List.length_cons] at hfuel ⊢
    have hi : item (itemsFrom fuel) (ofKinds (ks ++ .comma :: (more ++ rest)) d) = _ :=
      item_derived endsItem_comma hitem hnesting (by omega)
    rw [itemsFrom_comma hi rfl rfl, advance_ofKinds,
      itemsFrom_derived hrest hcomma hmore (List.cons_ne_nil _ _) hnesting' (by omega)]

end

/-! ### Whole queries -/

theorem peek_ofKinds_eq_eof_iff (heof : .eof ∉ ks) : (ofKinds ks d).peek = .eof ↔ ks = [] := by
  cases ks with
  | nil => simp
  | cons k ks =>
    have hk : k ≠ .eof := fun heq => heof (List.mem_cons.2 (Or.inl heq.symm))
    simpa using hk

/-- A query that is read without an error is derived. -/
theorem derives_of_parse (heof : .eof ∉ ks) (hclean : (ofKinds ks 0).parse.1.errors = []) :
    DerivesList ks (ofKinds ks 0).parse.1.items ∧
      listNesting (ofKinds ks 0).parse.1.items ≤ maxDepth := by
  have hlength : (ofKinds ks 0).rest.length = ks.length := List.length_map _
  rw [parse_eq] at hclean ⊢
  by_cases hempty : ks = []
  · obtain rfl := hempty
    exact ⟨.nil, Nat.zero_le _⟩
  have htop : topItems (ofKinds ks 0) = itemsFrom (ks.length + 1) (ofKinds ks 0) := by
    rw [topItems, if_neg (mt (peek_ofKinds_eq_eof_iff heof).1 hempty), hlength]
  rw [htop] at hclean ⊢
  have hitems : listErrors (itemsFrom (ks.length + 1) (ofKinds ks 0)).1 = [] := by
    split at hclean
    · exact hclean
    · rw [QueryTree.errors, listErrors_append] at hclean
      exact (List.append_eq_nil_iff.1 hclean).1
  obtain ⟨rest, ⟨used, hks, hderives, hnesting⟩, -, hq⟩ :=
    itemsFrom_clean (Nat.lt_add_one _) (Nat.zero_le _) hitems
  rw [hq] at hclean ⊢
  -- A token behind the list would have been an error.
  have hend : (ofKinds rest 0).peek = .eof := by
    by_cases hend : (ofKinds rest 0).peek = .eof
    · exact hend
    · have hgoes : ¬((ofKinds rest 0).halted || decide ((ofKinds rest 0).peek = .eof)) = true := by
        rw [decide_eq_false hend]
        exact Bool.false_ne_true
      rw [if_neg hgoes, QueryTree.errors, listErrors_append] at hclean
      cases (List.append_eq_nil_iff.1 hclean).2
  obtain rfl : rest = [] := by
    refine (peek_ofKinds_eq_eof_iff (d := 0) fun hmem => heof ?_).1 hend
    rw [hks]
    exact List.mem_append_right used hmem
  obtain rfl : ks = used := by rw [hks, List.append_nil]
  exact ⟨hderives, by rwa [Nat.zero_add] at hnesting⟩

/-- A derived query is read as what it derives. -/
theorem parse_derived {items : List SelectItem} (heof : .eof ∉ ks) (h : DerivesList ks items)
    (hnesting : listNesting items ≤ maxDepth) : (ofKinds ks 0).parse.1 = ⟨items⟩ := by
  have hlength : (ofKinds ks 0).rest.length = ks.length := List.length_map _
  have htop : topItems (ofKinds ks 0) = (items, ofKinds [] 0) := by
    by_cases hempty : ks = []
    · obtain rfl := hempty
      obtain rfl := h.eq_nil_iff.1 rfl
      rfl
    · have hread : itemsFrom (ks.length + 1) (ofKinds (ks ++ []) 0) = _ :=
        itemsFrom_derived nofun nofun h (mt h.eq_nil_iff.2 hempty) (by omega) (Nat.lt_succ_self _)
      rw [List.append_nil] at hread
      rw [topItems, if_neg (mt (peek_ofKinds_eq_eof_iff heof).1 hempty), hlength, hread]
  rw [parse_eq, htop]
  rfl

/-! ### Queries as texts -/

/-- Without its spans, a parser stands before bare token kinds, halted or not. -/
theorem mapSpans_eq_ofKinds {p : Parser} (heof : p.eof.kind = .eof) :
    p.mapSpans (fun _ => {}) =
      (ofKinds (p.rest.map Token.kind) p.depth).setHalted p.halted := by
  have hrest : p.rest.map (Token.mapSpans fun _ => {}) =
      (p.rest.map Token.kind).map (⟨·, {}⟩) := by
    rw [List.map_map]
    rfl
  rw [mapSpans, hrest, Token.mapSpans, heof]
  rfl

/-- Without its spans, a parser before a query stands before bare token kinds. -/
theorem mapSpans_ofQuery (query : String) :
    (ofQuery query).mapSpans (fun _ => {}) = ofKinds (kindsOf query.toList) 0 := by
  have hkinds : (ofQuery query).rest.map Token.kind = kindsOf query.toList := map_kind_tokens _
  rw [mapSpans_eq_ofKinds rfl, hkinds]
  rfl

theorem eraseSpans_parse (query : String) :
    (QueryTree.parse query).eraseSpans = (ofKinds (kindsOf query.toList) 0).parse.1 := by
  rw [← mapSpans_ofQuery, parse_mapSpans Span.joining_const_default]
  rfl

/-- The trees that are read without an error are the derived ones that are not too deep. -/
theorem parse_eq_iff (query : String) (items : List SelectItem) :
    ((QueryTree.parse query).errors = [] ∧ (QueryTree.parse query).eraseSpans = ⟨items⟩) ↔
      DerivesList (kindsOf query.toList) items ∧ listNesting items ≤ maxDepth := by
  have heof : .eof ∉ kindsOf query.toList := isRead_of_mem_kindsOf .eof
  rw [← QueryTree.errors_eraseSpans_eq_nil_iff, eraseSpans_parse]
  constructor
  · rintro ⟨herrors, hitems⟩
    have hderives := derives_of_parse heof herrors
    rwa [hitems] at hderives
  · rintro ⟨hderives, hnesting⟩
    rw [parse_derived heof hderives hnesting]
    exact ⟨hderives.errors_eq_nil, rfl⟩

theorem parseStrict_eq_ok {p : Parser} {t : QueryTree} :
    p.parseStrict.1 = .ok t ↔ p.parse.1.errors = [] ∧ p.parse.1 = t := by
  unfold parseStrict
  rcases p.parse with ⟨tree, q⟩
  cases herrors : tree.errors with
  | nil => simp [herrors]
  | cons error errors => simp [herrors]

/-- Strict reading of a query gives a tree exactly when the grammar derives the tokens of the query
and no more than 128 blocks lie in each other; the tree is the derived one. -/
theorem parseStrict_eq_ok_iff (query : String) (items : List SelectItem) :
    (∃ t, (ofQuery query).parseStrict.1 = .ok t ∧ t.eraseSpans.items = items) ↔
      DerivesList ((tokenize query).dropLast.map Token.kind) items ∧ listNesting items ≤ 128 := by
  have hkinds : (tokenize query).dropLast.map Token.kind = kindsOf query.toList := by
    rw [List.map_dropLast, map_kind_tokenize, List.dropLast_concat]
  rw [hkinds]
  refine Iff.trans ?_ (parse_eq_iff query items)
  constructor
  · rintro ⟨t, ht, rfl⟩
    obtain ⟨herrors, rfl⟩ := parseStrict_eq_ok.1 ht
    exact ⟨herrors, rfl⟩
  · rintro ⟨herrors, hitems⟩
    exact ⟨_, parseStrict_eq_ok.2 ⟨herrors, rfl⟩, congrArg QueryTree.items hitems⟩

end Parser

end EmbedQuery
