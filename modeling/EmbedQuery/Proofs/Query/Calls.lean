import EmbedQuery.Proofs.Query.Exactness
import EmbedQuery.Proofs.Query.Steps

/-!
# A parser that is asked again

A parser keeps its place from one reading to the next, and once it is halted it stays so. Halted, it
reads one item at most, and looks neither for the parentheses that would close the blocks it has
entered nor for the end of the input. `DerivesOpen` is the grammar of what it reads without an error
(`item_open`, `parse_open`); what is read that way lacks as many parentheses as there are blocks in
the tree (`DerivesOpen.closed`).

Whatever was read before, a strict reading that succeeds has read a select list as long as the
parser is not halted. If it is, it has done so just when those parentheses are all that is left.
-/

namespace EmbedQuery

/-- The token kinds of one item at most, without the parentheses that close its blocks. -/
inductive DerivesOpen : List TokenKind → List SelectItem → Prop
  | nil : DerivesOpen [] []
  | whole {ks : List TokenKind} {item : SelectItem} (hitem : DerivesItem ks item)
      (hnesting : item.nesting = 0) : DerivesOpen ks [item]
  | block (label : Option String) (name : String) {names : List String} {join : JoinModifier}
      {hint : Option String} {ks : List TokenKind} {items : List SelectItem}
      (hmean : ModifiersMean names join hint)
      (hcount : ¬(name = "count" ∧ names = [] ∧ ks = [])) (hopen : DerivesOpen ks items) :
      DerivesOpen
        (aliasTokens label ++ .identifier name :: (modifiersTokens names ++ .leftParen :: ks))
        [.block { name, label, hint, join, span := {} } items]

/-- The parentheses that close the blocks of a list that lie in each other. -/
def closers (items : List SelectItem) : List TokenKind :=
  List.replicate (listNesting items) .rightParen

theorem closers_block (resource : Resource) (items : List SelectItem) :
    closers [.block resource items] = closers items ++ [.rightParen] := by
  rw [closers, listNesting_singleton, SelectItem.nesting, List.replicate_succ', closers]

theorem DerivesOpen.eq_nil {ks : List TokenKind} {items : List SelectItem}
    (h : DerivesOpen ks items) (hks : ks = []) : items = [] := by
  cases h with
  | nil => rfl
  | whole hitem => exact absurd hks hitem.ne_nil
  | block => simp at hks

/-- With the parentheses that close its blocks, an open item is a list. -/
theorem DerivesOpen.closed {ks : List TokenKind} {items : List SelectItem}
    (h : DerivesOpen ks items) : DerivesList (ks ++ closers items) items := by
  induction h with
  | nil => exact .nil
  | @whole ks item hitem hnesting =>
    rw [closers, listNesting_singleton, hnesting, List.replicate_zero, List.append_nil]
    exact .single hitem
  | @block label name names join hint ks items hmean hcount _ ih =>
    have hblock := DerivesItem.block label name hmean
      (fun ⟨hname, hnames, hks⟩ => hcount ⟨hname, hnames, (List.append_eq_nil_iff.1 hks).1⟩) ih
    rw [closers_block]
    simpa using DerivesList.single hblock

namespace Parser

variable {ks rest : List TokenKind} {d fuel : Nat} {p q : Parser}

/-! ### What a halted parser reads -/

theorem head_halt_ok {hd : Head} (h : head p = .ok hd q) : head p.halt = .ok hd q.halt :=
  head_setHalted_ok true h

/-- A halted parser leaves a block where it stands. -/
theorem close_of_halted {resource : Resource} {items : List SelectItem} (hp : p.halted = true) :
    close resource none items p =
      (.block { resource with span := resource.span.cover p.previous } items, p) := by
  unfold close
  rw [if_pos hp]
  rfl

theorem close_halt {resource : Resource} (hspan : resource.span = {}) (items : List SelectItem) :
    close resource none items (ofKinds ks d).halt =
      (.block resource items, (ofKinds ks d).halt) := by
  have hcover : resource.span.cover (ofKinds ks d).halt.previous = {} := cover_unplaced hspan
  rw [close_of_halted rfl, hcover, ← hspan]

/-- A halted parser reads one item of a list. -/
theorem itemsFrom_halt (fuel : Nat) (p : Parser) :
    itemsFrom (fuel + 1) p.halt =
      ([(item (itemsFrom fuel) p.halt).1], (item (itemsFrom fuel) p.halt).2) :=
  itemsFrom_last rfl (Or.inl ((item_reaches (itemsFrom_reaches fuel) p.halt).halted rfl))

/-- The kinds `ks` begin with an open item that `rest` follows; inside `d` blocks it is not too
deep. -/
def ReadsOpen (d : Nat) (ks : List TokenKind) (items : List SelectItem) (rest : List TokenKind) :
    Prop :=
  ∃ used, ks = used ++ rest ∧ DerivesOpen used items ∧ d + listNesting items ≤ maxDepth

/-- Behind the parenthesis that opens it, a block goes on with its list. -/
theorem ReadsOpen.block {label : Option String} {name : String} {names : List String}
    {join : JoinModifier} {hint : Option String} {items : List SelectItem}
    (h : ReadsOpen (d + 1) ks items rest) (hmean : ModifiersMean names join hint)
    (hcount : ¬(name = "count" ∧ names = [] ∧ items = [])) :
    ReadsOpen d
      (aliasTokens label ++ .identifier name :: (modifiersTokens names ++ .leftParen :: ks))
      [.block { name, label, hint, join, span := {} } items] rest := by
  obtain ⟨used, hks, hopen, hnesting⟩ := h
  have hblock := DerivesOpen.block label name hmean
    (fun ⟨hname, hnames, hused⟩ => hcount ⟨hname, hnames, hopen.eq_nil hused⟩) hopen
  refine ⟨_, ?_, hblock, ?_⟩
  · simp [hks]
  · rw [listNesting_singleton, SelectItem.nesting]
    omega

/-- An item that a halted parser reads without an error is open, if the list inside it is. -/
theorem item_open (items : Parser → List SelectItem × Parser)
    (hitems : ∀ inner : List TokenKind, inner.length < ks.length → d + 1 ≤ maxDepth →
      listErrors (items (ofKinds inner (d + 1)).halt).1 = [] →
      ∃ rest, ReadsOpen (d + 1) inner (items (ofKinds inner (d + 1)).halt).1 rest ∧
        (items (ofKinds inner (d + 1)).halt).1 ≠ [] ∧
        (items (ofKinds inner (d + 1)).halt).2 = (ofKinds rest (d + 1)).halt)
    (hclean : (item items (ofKinds ks d).halt).1.errors = []) (hdepth : d ≤ maxDepth) :
    ∃ rest, ReadsOpen d ks [(item items (ofKinds ks d).halt).1] rest ∧
      (item items (ofKinds ks d).halt).2 = (ofKinds rest d).halt := by
  have hread : ReadsClean items true d ks (item items (ofKinds ks d).halt) := item_reads hclean
  generalize item items (ofKinds ks d).halt = read at hread ⊢
  cases hread with
  | complete hitem hnesting rest =>
    refine ⟨rest, ⟨_, rfl, .whole hitem hnesting, ?_⟩, rfl⟩
    rwa [listNesting_singleton, hnesting]
  | @empty label name names join hint rest hmean hcount hdepth =>
    have hinner : ReadsOpen (d + 1) (.rightParen :: rest) [] (.rightParen :: rest) :=
      ⟨[], rfl, .nil, hdepth⟩
    rw [setHalted_true, close_halt rfl]
    exact ⟨_, hinner.block hmean (fun ⟨hname, hnames, _⟩ => hcount ⟨hname, hnames⟩), rfl⟩
  | @block label name names join hint inner hmean hdepth hlist =>
    obtain ⟨rest, hinner, hne, hq⟩ := hitems inner (by simp; omega) hdepth hlist
    have hleave : (items ((ofKinds inner (d + 1)).setHalted true)).2.leave =
        (ofKinds rest d).halt := congrArg leave hq
    rw [hleave, close_halt rfl]
    exact ⟨_, hinner.block hmean (fun ⟨_, _, hnil⟩ => hne hnil), rfl⟩

/-- A list that a halted parser reads without an error is an open item; the bound is large enough
for every list inside. -/
theorem itemsFrom_open (hfuel : ks.length < fuel) (hdepth : d ≤ maxDepth)
    (hclean : listErrors (itemsFrom fuel (ofKinds ks d).halt).1 = []) :
    ∃ rest, ReadsOpen d ks (itemsFrom fuel (ofKinds ks d).halt).1 rest ∧
      (itemsFrom fuel (ofKinds ks d).halt).1 ≠ [] ∧
      (itemsFrom fuel (ofKinds ks d).halt).2 = (ofKinds rest d).halt := by
  induction fuel generalizing ks d with
  | zero => cases hfuel
  | succ fuel ih =>
    rw [itemsFrom_halt] at hclean ⊢
    obtain ⟨rest, hreads, hq⟩ := @item_open ks d (itemsFrom fuel)
      (fun inner hinner hdepth hclean => ih (by omega) hdepth hclean)
      (by simpa [listErrors] using hclean) hdepth
    exact ⟨rest, hreads, List.cons_ne_nil _ _, hq⟩

/-- If a halted parser reads the very item that is derived, it leaves the parentheses that close the
blocks of the item. -/
theorem item_halt_derived {i : SelectItem} (hrest : EndsItem rest) (hitem : DerivesItem ks i)
    (hnesting : d + i.nesting ≤ maxDepth) (hfuel : ks.length ≤ fuel)
    (hsame : (item (itemsFrom fuel) (ofKinds (ks ++ rest) d).halt).1 = i) :
    (item (itemsFrom fuel) (ofKinds (ks ++ rest) d).halt).2 =
      (ofKinds (closers [i] ++ rest) d).halt := by
  induction fuel generalizing ks rest d i with
  | zero => exact absurd (List.length_eq_zero_iff.1 (Nat.le_zero.1 hfuel)) hitem.ne_nil
  | succ fuel ih =>
    by_cases hplain : i.nesting = 0
    · rw [item_complete (head_halt_ok (head_complete hitem hplain hrest)), closers,
        listNesting_singleton, hplain]
      rfl
    cases hitem with
    | wildcard | column | count | bare => exact absurd rfl hplain
    | @block label name names join hint inner items hmean hcount hlist =>
      rw [SelectItem.nesting] at hnesting
      simp only [List.append_assoc, List.cons_append, List.nil_append, List.length_append,
        List.length_cons] at hfuel hsame ⊢
      obtain ⟨hhead, hpeek⟩ := head_block label name hmean hcount hlist rest (d := d) (by omega)
      have hhalted := head_halt_ok hhead
      by_cases hempty : items = []
      · rw [item_empty hhalted (hpeek.2 hempty), close_halt rfl, closers_block]
        obtain rfl := hempty
        obtain rfl := hlist.eq_nil_iff.2 rfl
        rfl
      · rcases hread : item (itemsFrom fuel) (ofKinds (inner ++ .rightParen :: rest) (d + 1)).halt
          with ⟨first, q⟩
        have hitems : itemsFrom (fuel + 1) (ofKinds (inner ++ .rightParen :: rest) d).halt.enter =
            ([first], q) := by
          refine (itemsFrom_halt fuel (ofKinds (inner ++ .rightParen :: rest) (d + 1))).trans ?_
          rw [hread]
        have hq := (item_reaches (itemsFrom_reaches fuel)
          (ofKinds (inner ++ .rightParen :: rest) (d + 1)).halt).halted rfl
        rw [hread] at hq
        rw [item_block hhalted (mt hpeek.1 hempty), hitems, close_of_halted (p := q.leave) hq]
          at hsame ⊢
        -- The list inside has the one item that was read of it.
        obtain ⟨-, rfl⟩ := SelectItem.block.inj hsame
        cases hlist with
        | single hfirst =>
          rw [listNesting_singleton] at hnesting
          have hinner := ih endsItem_rightParen hfirst (by omega) (by omega)
            (congrArg Prod.fst hread)
          rw [hread] at hinner
          obtain rfl : q = _ := hinner
          rw [closers_block, List.append_assoc]
          rfl

/-! ### Whole queries -/

/-- The kinds of the tokens behind the place. -/
def unread (p : Parser) : List TokenKind := p.rest.map Token.kind

theorem unread_ofKinds_halt : (ofKinds ks d).halt.unread = ks :=
  map_kind_ofKinds (d := d)

theorem unread_mapSpans (f : Span → Span) (p : Parser) : (p.mapSpans f).unread = p.unread := by
  simp [unread, mapSpans, Token.mapSpans, Function.comp_def]

/-- A halted parser does not look for the end of the input. -/
theorem parse_of_halted (hp : p.halted = true) : p.parse = (⟨(topItems p).1⟩, (topItems p).2) := by
  rw [parse_eq, (topItems_reaches p).halted hp, Bool.true_or]
  exact if_pos rfl

theorem topItems_halt (heof : .eof ∉ ks) :
    topItems (ofKinds ks d).halt =
      if ks = [] then ([], (ofKinds ks d).halt)
      else itemsFrom (ks.length + 1) (ofKinds ks d).halt := by
  have hlength : (ofKinds ks d).halt.rest.length = ks.length := List.length_map _
  have hpeek : (ofKinds ks d).halt.peek = .eof ↔ ks = [] := peek_ofKinds_eq_eof_iff (d := d) heof
  simp only [topItems, hpeek, hlength]

/-- What a halted parser reads of a query without an error is an open item. -/
theorem parse_open (heof : .eof ∉ ks) (hclean : (ofKinds ks 0).halt.parse.1.errors = []) :
    ∃ rest, ReadsOpen 0 ks (ofKinds ks 0).halt.parse.1.items rest ∧
      (ofKinds ks 0).halt.parse.2 = (ofKinds rest 0).halt := by
  rw [parse_of_halted rfl, topItems_halt heof] at hclean ⊢
  split
  · next hempty =>
    obtain rfl := hempty
    exact ⟨[], ⟨[], rfl, .nil, Nat.zero_le _⟩, rfl⟩
  · next hempty =>
    rw [if_neg hempty] at hclean
    obtain ⟨rest, hreads, -, hq⟩ := itemsFrom_open (Nat.lt_succ_self _) (Nat.zero_le _) hclean
    exact ⟨rest, hreads, hq⟩

/-- If a halted parser reads the very list that is derived, it leaves the parentheses that close its
blocks. -/
theorem parse_halt_derived (heof : .eof ∉ ks)
    (hlist : DerivesList ks (ofKinds ks 0).halt.parse.1.items)
    (hnesting : listNesting (ofKinds ks 0).halt.parse.1.items ≤ maxDepth) :
    (ofKinds ks 0).halt.parse.2 = (ofKinds (closers (ofKinds ks 0).halt.parse.1.items) 0).halt := by
  rw [parse_of_halted rfl, topItems_halt heof] at hlist hnesting ⊢
  split
  · next hempty =>
    obtain rfl := hempty
    rfl
  · next hempty =>
    rw [if_neg hempty, itemsFrom_halt] at hlist hnesting
    rw [itemsFrom_halt]
    rw [listNesting_singleton] at hnesting
    cases hlist with
    | single hitem =>
      have hread := @item_halt_derived ks [] 0 ks.length _ nofun hitem (by omega) (Nat.le_refl _)
        (by rw [List.append_nil])
      rwa [List.append_nil, List.append_nil] at hread

/-- A halted parser that reads a query without an error has read a list if it leaves just the
parentheses that close its blocks, and only then. -/
theorem parse_halt_iff (heof : .eof ∉ ks) (hclean : (ofKinds ks 0).halt.parse.1.errors = []) :
    listNesting (ofKinds ks 0).halt.parse.1.items ≤ maxDepth ∧
      (DerivesList ks (ofKinds ks 0).halt.parse.1.items ↔
        (ofKinds ks 0).halt.parse.2.unread = closers (ofKinds ks 0).halt.parse.1.items) := by
  obtain ⟨rest, ⟨used, hks, hopen, hnesting⟩, hq⟩ := parse_open heof hclean
  rw [Nat.zero_add] at hnesting
  refine ⟨hnesting, fun hlist => ?_, fun hrest => ?_⟩
  · rw [parse_halt_derived heof hlist hnesting]
    exact unread_ofKinds_halt
  · rw [hq, unread_ofKinds_halt] at hrest
    obtain rfl := hrest
    have hclosed := hopen.closed
    rwa [← hks] at hclosed

/-! ### One call after another -/

/-- What a parser can be asked for. -/
inductive Call
  | parse
  | parseStrict

/-- The parser behind a call. -/
def after (p : Parser) : Call → Parser
  | .parse => p.parse.2
  | .parseStrict => p.parseStrict.2

/-- The parser behind some calls, one after another. -/
def afterAll (p : Parser) (calls : List Call) : Parser := calls.foldl after p

/-- Strict reading ends where reading does. -/
theorem parseStrict_snd (p : Parser) : p.parseStrict.2 = p.parse.2 := by
  unfold parseStrict
  rcases p.parse with ⟨tree, q⟩
  cases herrors : tree.errors <;> simp [herrors]

/-- No call moves the parser backwards or leaves it in a block. -/
theorem after_reaches (p : Parser) (call : Call) : Reaches p (p.after call) := by
  cases call with
  | parse => exact parse_reaches p
  | parseStrict =>
    rw [after, parseStrict_snd]
    exact parse_reaches p

theorem afterAll_reaches (p : Parser) (calls : List Call) : Reaches p (p.afterAll calls) := by
  induction calls generalizing p with
  | nil => exact .refl
  | cons call calls ih => exact (after_reaches p call).trans (ih _)

/-- Without its spans, a parser of a query stands before bare token kinds, halted or not. -/
theorem mapSpans_of_reaches {query : String} (h : Reaches (ofQuery query) p) :
    p.mapSpans (fun _ => {}) = (ofKinds p.unread 0).setHalted p.halted := by
  have heof : p.eof.kind = .eof := by rw [h.eof]; rfl
  rw [mapSpans_eq_ofKinds heof, h.depth]
  rfl

/-- The end of the input is not among the tokens of a query. -/
theorem eof_not_mem_unread {query : String} (h : Reaches (ofQuery query) p) : .eof ∉ p.unread := by
  intro hmem
  have hkinds : (ofQuery query).unread = kindsOf query.toList := map_kind_tokens _
  have hsuffix : p.unread <:+ kindsOf query.toList := hkinds ▸ h.rest.map Token.kind
  exact isRead_of_mem_kindsOf .eof (hsuffix.subset hmem)

/-- Whatever was read before, a strict reading that succeeds has read a select list, and the tree is
the one it denotes, unless the parser was halted. If it was, it has done so just when the
parentheses that close the blocks of the tree are what it leaves. -/
theorem parseStrict_derives_iff {query : String} {calls : List Call} {p q : Parser} {t : QueryTree}
    (hp : (ofQuery query).afterAll calls = p) (h : p.parseStrict = (.ok t, q)) :
    listNesting t.eraseSpans.items ≤ 128 ∧
      (DerivesList p.unread t.eraseSpans.items ↔
        (p.halted = true → q.unread = closers t.eraseSpans.items)) := by
  have hreaches : Reaches (ofQuery query) p := hp ▸ afterAll_reaches _ calls
  have heof := eof_not_mem_unread hreaches
  obtain ⟨herrors, htree⟩ := parseStrict_eq_ok.1 (congrArg Prod.fst h)
  have hparse : p.parse = (t, q) :=
    Prod.ext htree ((parseStrict_snd p).symm.trans (congrArg Prod.snd h))
  have hread : ((ofKinds p.unread 0).setHalted p.halted).parse =
      (t.eraseSpans, q.mapSpans fun _ => {}) := by
    rw [← mapSpans_of_reaches hreaches, parse_mapSpans Span.joining_const_default, hparse]
    rfl
  have hclean : ((ofKinds p.unread 0).setHalted p.halted).parse.1.errors = [] := by
    rw [hread]
    exact QueryTree.errors_eraseSpans_eq_nil_iff.2 (htree ▸ herrors)
  cases hhalted : p.halted with
  | false =>
    rw [hhalted] at hread hclean
    obtain ⟨hderives, hnesting⟩ := derives_of_parse heof hclean
    rw [show (ofKinds p.unread 0).parse = _ from hread] at hderives hnesting
    exact ⟨hnesting, fun _ => nofun, fun _ => hderives⟩
  | true =>
    rw [hhalted] at hread hclean
    have hiff := parse_halt_iff heof hclean
    rw [show (ofKinds p.unread 0).halt.parse = _ from hread, unread_mapSpans] at hiff
    exact ⟨hiff.1, hiff.2.trans (by simp)⟩

/-- The second reading of `b(c)` leaves its parenthesis, and the last one finds the end. -/
theorem parseStrict_derives_iff_halted :
    ∃ t q, (((ofQuery "a b(c)").afterAll [.parseStrict]).parseStrict = (.ok t, q)) ∧
      listNesting t.eraseSpans.items ≤ 128 ∧
      (DerivesList ((ofQuery "a b(c)").afterAll [.parseStrict]).unread t.eraseSpans.items ↔
        (((ofQuery "a b(c)").afterAll [.parseStrict]).halted = true →
          q.unread = closers t.eraseSpans.items)) := by
  have herrors : ((ofQuery "a b(c)").afterAll [.parseStrict]).parse.1.errors = [] := by
    decide +kernel
  have h : ((ofQuery "a b(c)").afterAll [.parseStrict]).parseStrict = (.ok _, _) :=
    Prod.ext (parseStrict_eq_ok.2 ⟨herrors, rfl⟩) rfl
  exact ⟨_, _, h, parseStrict_derives_iff rfl h⟩

/-- The second reading takes `b(c` for a list. -/
theorem parseStrict_unclosed :
    ∃ t, ((ofQuery "a b(c").afterAll [.parseStrict]).parseStrict.1 = .ok t ∧
      ∀ items, ¬DerivesList ((ofQuery "a b(c").afterAll [.parseStrict]).unread items := by
  have herrors : ((ofQuery "a b(c").afterAll [.parseStrict]).parse.1.errors = [] := by
    decide +kernel
  have hunread : ((ofQuery "a b(c").afterAll [.parseStrict]).unread =
      [.identifier "b", .leftParen, .identifier "c"] := by decide +kernel
  refine ⟨_, parseStrict_eq_ok.2 ⟨herrors, rfl⟩, fun items hlist => ?_⟩
  rw [hunread] at hlist
  exact absurd hlist.balanced (by decide)

end Parser

end EmbedQuery
