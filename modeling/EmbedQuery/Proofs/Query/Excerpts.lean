import EmbedQuery.Proofs.Query.Concatenation
import EmbedQuery.Proofs.Query.Layout
import EmbedQuery.Proofs.Token.Cuts

/-!
# The text of an item

The span of an item without an error cuts a text out of the query that is read as this one item, up
to places and numbers (`LiesOn.reread`, `Parser.parse_excerpts`). This holds of every item on the
walk through a query, also inside blocks that have errors and in queries whose reading stopped
elsewhere: the tokens of the item are the tokens of the text, further on (`Splits.exists_cut`), and
they are read alike anywhere (`LiesOn.readsAs`).

The spans of such items of one list go up without touching, for a comma stands between them
(`LiesOnList.ordered`), and each lies strictly inside the span of the block that has the list
(`LiesOn.encloses`).
-/

namespace EmbedQuery

open Arena

variable {ts us before after : List Token} {s : Span} {i j : SelectItem} {items : List SelectItem}

/-! ### Spans over tokens -/

/-- Tokens one behind the other, none of them empty. -/
structure Tokens.Solid (ts : List Token) : Prop where
  before : ts.Pairwise fun s t => s.span.stop ≤ t.span.start
  solid : ∀ t ∈ ts, t.span.start < t.span.stop

theorem Splits.solid {n : Nat} {cs : List Char} (h : Splits n cs ts) : Tokens.Solid ts :=
  ⟨h.pairwise, fun t ht => (h.bounds t ht).2.1⟩

namespace Tokens

theorem Solid.of_append (h : Solid (before ++ us ++ after)) : Solid us where
  before := (List.pairwise_append.1 (List.pairwise_append.1 h.before).1).2.1
  solid t ht := h.solid t (List.mem_append_left _ (List.mem_append_right _ ht))

/-- No token starts before the first one. -/
theorem Solid.first_le {first : Token} (hs : Solid ts) (hfirst : ts.head? = some first) :
    ∀ t ∈ ts, first.span.start ≤ t.span.start := by
  obtain ⟨more, rfl⟩ := List.head?_eq_some_iff.1 hfirst
  intro t ht
  rcases List.mem_cons.1 ht with rfl | hmem
  · exact Nat.le_refl _
  · have hsolid := hs.solid first List.mem_cons_self
    have hbefore := (List.pairwise_cons.1 hs.before).1 t hmem
    omega

/-- No token stops behind the last one. -/
theorem Solid.le_last {last : Token} (hs : Solid ts) (hlast : ts.getLast? = some last) :
    ∀ t ∈ ts, t.span.stop ≤ last.span.stop := by
  obtain ⟨more, rfl⟩ := List.getLast?_eq_some_iff.1 hlast
  intro t ht
  rcases List.mem_append.1 ht with hmem | hmem
  · have hsolid := hs.solid last (List.mem_append_right _ List.mem_cons_self)
    have hbefore := (List.pairwise_append.1 hs.before).2.2 t hmem last List.mem_cons_self
    omega
  · rw [List.mem_singleton.1 hmem]

/-- The span that covers tokens starts with the first and stops with the last. -/
theorem Cover.ends (h : Cover ts s) (hs : Solid ts) :
    ∃ first last, ts.head? = some first ∧ ts.getLast? = some last ∧
      s = ⟨first.span.start, last.span.stop⟩ := by
  obtain ⟨first, last, hfirst, hlast, rfl⟩ := h
  have hstart := hs.first_le hfirst last (List.mem_of_getLast? hlast)
  have hstop := hs.le_last hlast first (List.mem_of_mem_head? hfirst)
  refine ⟨first, last, hfirst, hlast, ?_⟩
  rw [Span.cover, Nat.min_eq_left hstart, Nat.max_eq_right hstop]

/-- Tokens lie inside the span that covers them. -/
theorem Cover.contains (h : Cover ts s) (hs : Solid ts) :
    ∀ t ∈ ts, s.start ≤ t.span.start ∧ t.span.stop ≤ s.stop := by
  obtain ⟨first, last, hfirst, hlast, rfl⟩ := h.ends hs
  exact fun t ht => ⟨hs.first_le hfirst t ht, hs.le_last hlast t ht⟩

/-- Tokens before and behind those that a span covers lie outside of it. -/
theorem Cover.apart (h : Cover us s) (hs : Solid (before ++ us ++ after)) :
    (∀ t ∈ before, t.span.stop ≤ s.start) ∧ ∀ t ∈ after, s.stop ≤ t.span.start := by
  obtain ⟨first, last, hfirst, hlast, rfl⟩ := h
  have hfirst' : first ∈ us := List.mem_of_mem_head? hfirst
  have hlast' : last ∈ us := List.mem_of_getLast? hlast
  obtain ⟨hleft, -, hright⟩ := List.pairwise_append.1 hs.before
  have hbefore := (List.pairwise_append.1 hleft).2.2
  constructor
  · intro t ht
    have hle := hbefore t ht first hfirst'
    have hle' := hbefore t ht last hlast'
    simp only [Span.cover]
    omega
  · intro t ht
    have hle := hright first (List.mem_append_right _ hfirst') t ht
    have hle' := hright last (List.mem_append_right _ hlast') t ht
    simp only [Span.cover]
    omega

end Tokens

/-! ### Lists and the blocks that have them -/

theorem LiesOn.cover_of_clean (h : LiesOn ts i) (hclean : i.errors = []) : Tokens.Cover ts i.span :=
  h.cover fun e discarded hi => by rw [hi] at hclean; cases hclean

/-- The items of a list go up, with a comma between them. -/
theorem LiesOnList.ordered (h : LiesOnList ts items) (hs : Tokens.Solid ts) :
    items.Pairwise fun i j => i.errors = [] → j.errors = [] → i.span.stop < j.span.start := by
  induction items generalizing ts with
  | nil => exact .nil
  | cons i items ih =>
    cases h with
    | single => exact List.pairwise_singleton _ _
    | @cons ts us comma _ next items hitem hcomma hmore =>
      have hus : Tokens.Solid us := by
        have happend : Tokens.Solid ((ts ++ [comma]) ++ us ++ []) := by simpa using hs
        exact happend.of_append
      refine .cons (fun j hj hi hclean => ?_) (ih hmore hus)
      obtain ⟨before, vs, after, rfl, hlies, -⟩ := hmore.exists_item hj
      have hright : Tokens.Solid ([] ++ ts ++ comma :: (before ++ vs ++ after)) := hs
      have hleft : Tokens.Solid ((ts ++ comma :: before) ++ vs ++ after) := by simpa using hs
      have hstop := ((hitem.cover_of_clean hi).apart hright).2 comma List.mem_cons_self
      have hstart := ((hlies.cover_of_clean hclean).apart hleft).1 comma (by simp)
      have hsolid := hs.solid comma (by simp)
      omega

/-- The items in the list of a block go up. -/
theorem LiesOn.ordered {resource : Resource} (h : LiesOn ts (.block resource items))
    (hs : Tokens.Solid ts) :
    items.Pairwise fun i j => i.errors = [] → j.errors = [] → i.span.stop < j.span.start := by
  cases h with
  | whole _ _ _ hnesting => cases hnesting
  | block _ _ hlist =>
    rw [← List.append_assoc] at hs
    exact hlist.ordered hs.of_append

/-- An item without an error lies strictly inside the block that has it in its list. -/
theorem LiesOn.encloses {resource : Resource} (h : LiesOn ts (.block resource items))
    (hs : Tokens.Solid ts) (hi : i ∈ items) (hclean : i.errors = []) :
    resource.span.start < i.span.start ∧ i.span.stop < resource.span.stop := by
  cases h with
  | whole _ _ _ hnesting => cases hnesting
  | @block opening inner closing resource _ s hopens hne hlist hcloses hspan =>
    obtain ⟨before, us, after, rfl, hlies, hlast⟩ := hlist.exists_item hi
    have hsolid : Tokens.Solid ((opening ++ before) ++ us ++ (after ++ closing)) := by
      simpa using hs
    obtain ⟨hbefore, hafter⟩ := (hlies.cover_of_clean hclean).apart hsolid
    obtain ⟨t, more, rfl⟩ := List.exists_cons_of_ne_nil hne
    -- Where nothing closes the block, its last item has an error.
    obtain ⟨u, hu⟩ : ∃ u, u ∈ after ++ closing := by
      obtain ⟨paren, rfl, -⟩ | ⟨-, last, hitem, herrors⟩ := hcloses
      · exact ⟨paren, by simp⟩
      · refine List.exists_mem_of_ne_nil _ fun hnil => herrors ?_
        rw [hlast (List.append_eq_nil_iff.1 hnil).1] at hitem
        rwa [← Option.some.inj hitem]
    have hcontains := hspan.contains hs
    have ht := hcontains t (by simp)
    have hu' := hcontains u (by
      rcases List.mem_append.1 hu with hu | hu <;> simp [hu])
    have hstart := hbefore t (by simp)
    have hstop := hafter u hu
    have hsolid := hs.solid t (by simp)
    have hsolid' := hs.solid u (by rcases List.mem_append.1 hu with hu | hu <;> simp [hu])
    show s.start < i.span.start ∧ i.span.stop < s.stop
    omega

/-! ### Reading the text of an item -/

namespace Parser

/-- Where a list is read that is one item and the whole input, the query is this item. -/
theorem parse_of_item {p q : Parser} (heof : p.eof.kind = .eof) (hpeek : p.peek ≠ .eof)
    (h : item readList p = (i, q)) (hq : q.peek = .eof) : p.parse = (⟨[i]⟩, q) := by
  have htop : topItems p = ([i], q) := by
    have hread := readList_last heof h (Or.inr (by rw [hq]; exact TokenKind.noConfusion))
    rw [topItems, if_neg hpeek]
    exact hread
  rw [parse_eq, htop, if_pos (by simp [hq])]

end Parser

open EmbedQuery.Parser

/-- From the first of its tokens to the last, an item without an error has a text, and the text
alone is read as the item, without what stands before it. -/
theorem LiesOn.reread {query : String} (h : LiesOn us i)
    (htokens : (Lexer.ofQuery query).tokens = before ++ us ++ after) (hclean : i.errors = [])
    (hnesting : i.nesting ≤ maxDepth) :
    ∃ text read, i.span.text query = some text ∧ QueryTree.parse text = ⟨[read]⟩ ∧
      read.mapSpans (Span.shift i.span.start) = i := by
  have hsplits : Splits 0 query.toList (before ++ us ++ after) :=
    htokens ▸ Lexer.splits_tokens (Lexer.ofQuery query)
  obtain ⟨first, last, hfirst, hlast, hspan⟩ :=
    (h.cover_of_clean hclean).ends hsplits.solid.of_append
  obtain ⟨front, text, back, hquery, hstart, hstop, hpiece⟩ := hsplits.exists_cut hfirst hlast
  rw [hspan, hstart, hstop]
  -- The tokens of the text, further on.
  have hshift : (Lexer.tokens ⟨0, text⟩).map (Token.mapSpans (Span.shift (byteLength front))) =
      us := by
    have hshifted := (Lexer.splits_tokens ⟨0, text⟩).shift (byteLength front)
    exact hshifted.tokens_eq.symm.trans hpiece.tokens_eq
  have hfaces : Faces ((ofQuery (String.ofList text)).mapSpans (Span.shift (byteLength front)))
      us [] := by
    refine ⟨?_, rfl, rfl⟩
    rw [List.append_nil, ← hshift, Parser.mapSpans, ofQuery, Lexer.ofQuery, String.toList_ofList]
  obtain ⟨q, hread, hmoves, hq, -⟩ := h.readsAs hclean _ [] hfaces (by simp [EndsItem])
    (show 0 + i.nesting ≤ maxDepth by omega)
  rcases halone : item readList (ofQuery (String.ofList text)) with ⟨read, r⟩
  rw [item_readList_mapSpans (Span.joining_shift _), halone] at hread
  obtain ⟨rfl, rfl⟩ := Prod.mk.inj hread
  have hend : r.peek = .eof := by
    rw [← peek_mapSpans (f := Span.shift (byteLength front)), peek, current, hq]
    exact hmoves.isEof
  have hpeek : (ofQuery (String.ofList text)).peek ≠ .eof := by
    obtain ⟨more, rfl⟩ := List.head?_eq_some_iff.1 hfirst
    have hmem : first.kind ∈ kindsOf query.toList := by
      have hkinds : (Lexer.ofQuery query).tokens.map Token.kind = kindsOf query.toList :=
        map_kind_tokens _
      simp [← hkinds, htokens]
    rw [← peek_mapSpans (f := Span.shift (byteLength front)), peek, current, hfaces.rest]
    intro heof
    rw [show first.kind = .eof from heof] at hmem
    exact isRead_of_mem_kindsOf .eof hmem
  refine ⟨String.ofList text, read, Span.text_eq front text hquery, ?_, rfl⟩
  rw [QueryTree.parse, parse_of_item rfl hpeek halone hend]

/-! ### Numbers of an item -/

/-- The flat item stands in a list of the numbered query, the outermost or that of a resource. -/
def Arena.Lists (a : Arena) (item : Arena.Item) : Prop :=
  item ∈ a.items ∨ ∃ node ∈ a.nodes, ∃ select, node.select = some select ∧ item ∈ select

/-- The flat item of `i` stands in a list, and the resources of `i` stand one after the other, with
the numbers of their places. -/
def HasPart (next : Nat) (a : Arena) (i : SelectItem) : Prop :=
  ∃ front back, a.nodes = front ++ (i.flatten (next + front.length)).2 ++ back ∧
    a.Lists (i.flatten (next + front.length)).1

theorem HasPart.self (next : Nat) (i : SelectItem) :
    HasPart next ⟨[(i.flatten next).1], (i.flatten next).2⟩ i :=
  ⟨[], [], by simp, Or.inl (by simp)⟩

/-- What a numbered query has, it has with other resources around its own, if its items still stand
in a list. -/
theorem HasPart.around {next : Nat} {a : Arena} (before after : List Arena.Node)
    (h : HasPart (next + before.length) a i) {items : List Arena.Item}
    (hitems : ∀ item ∈ a.items, Arena.Lists ⟨items, before ++ a.nodes ++ after⟩ item) :
    HasPart next ⟨items, before ++ a.nodes ++ after⟩ i := by
  obtain ⟨front, back, hnodes, hlists⟩ := h
  have hnext : next + (before ++ front).length = next + before.length + front.length := by
    rw [List.length_append, Nat.add_assoc]
  refine ⟨before ++ front, back ++ after, ?_, ?_⟩
  · rw [hnext, hnodes]
    simp
  · rw [hnext]
    obtain hitem | ⟨node, hnode, hselect⟩ := hlists
    · exact hitems _ hitem
    · exact Or.inr ⟨node, by simp [hnode], hselect⟩

mutual

theorem SelectItem.hasPart (next : Nat) : ∀ (i : SelectItem), ∀ j ∈ i.walk,
    HasPart next ⟨[(i.flatten next).1], (i.flatten next).2⟩ j
  | .wildcard _, j, hj | .column _, j, hj | .count .., j, hj | .bare _, j, hj
  | .invalid .., j, hj => by
    obtain rfl := List.mem_singleton.1 hj
    exact .self next _
  | .block resource items, j, hj => by
    obtain rfl | hj := List.mem_cons.1 hj
    · exact .self next _
    · have hinner := hasPart_flattenList next items j hj
      -- The resource of the block has the list in which the items stand.
      refine hinner.around [] [⟨resource, some (flattenList next items).1⟩] fun item hitem => ?_
      exact Or.inr ⟨⟨resource, some (flattenList next items).1⟩, by simp, _, rfl, hitem⟩

/-- Each item on the walk through a list is a part of its flat view. -/
theorem hasPart_flattenList (next : Nat) : ∀ (items : List SelectItem), ∀ j ∈ listWalk items,
    HasPart next ⟨(flattenList next items).1, (flattenList next items).2⟩ j
  | [], j, hj => by cases hj
  | i :: items, j, hj => by
    rw [flattenList_cons]
    obtain hj | hj := List.mem_append.1 hj
    · refine (i.hasPart next j hj).around [] _ fun item hitem => Or.inl ?_
      rw [List.mem_singleton.1 hitem]
      exact List.mem_cons_self
    · have hmore := hasPart_flattenList (next + (i.flatten next).2.length) items j hj
      have haround := hmore.around (i.flatten next).2 [] fun item hitem =>
        Or.inl (List.mem_cons_of_mem (i.flatten next).1 hitem)
      rwa [List.append_nil] at haround

end

/-! ### Whole queries -/

mutual

theorem SelectItem.nesting_le_of_mem_walk : ∀ (i : SelectItem), ∀ j ∈ i.walk, j.nesting ≤ i.nesting
  | .wildcard _, j, hj | .column _, j, hj | .count .., j, hj | .bare _, j, hj
  | .invalid .., j, hj => by
    rw [List.mem_singleton.1 hj]
  | .block resource items, j, hj => by
    obtain rfl | hj := List.mem_cons.1 hj
    · exact Nat.le_refl _
    · have hle := nesting_le_of_mem_listWalk items j hj
      rw [SelectItem.nesting]
      omega

/-- Inside a list there are no more blocks in each other than in the list. -/
theorem nesting_le_of_mem_listWalk :
    ∀ (items : List SelectItem), ∀ j ∈ listWalk items, j.nesting ≤ listNesting items
  | [], j, hj => by cases hj
  | i :: items, j, hj => by
    rw [listNesting]
    obtain hj | hj := List.mem_append.1 hj
    · have hle := i.nesting_le_of_mem_walk j hj
      omega
    · have hle := nesting_le_of_mem_listWalk items j hj
      omega

end

/-- The text `text` of the query is what the item was read from: alone, it is read as the one item
`read`, which is `item` with its places counted from where the text begins and its resources
numbered from 0 in the same order. -/
structure Excerpt (query : String) (item : SelectItem) (text : String) (read : SelectItem) :
    Prop where
  cut : item.span.text query = some text
  alone : QueryTree.parse text = ⟨[read]⟩
  clean : (QueryTree.parse text).errors = []
  same : read.mapSpans (Span.shift item.span.start) = item
  numbers : ∃ front back flat,
    (QueryTree.parse query).arena.nodes =
      front ++ (QueryTree.parse text).arena.nodes.map
        (fun node => (node.mapSpans (Span.shift item.span.start)).shift front.length) ++ back ∧
    (QueryTree.parse text).arena.items = [flat] ∧
    (QueryTree.parse query).arena.Lists
      ((flat.mapSpans (Span.shift item.span.start)).shift front.length)

/-- A part of a query that is an excerpt but for its numbers is one. -/
theorem Excerpt.of_alone {query text : String} {item read : SelectItem}
    (hitem : item ∈ listWalk (QueryTree.parse query).items) (hclean : item.errors = [])
    (hcut : item.span.text query = some text) (halone : QueryTree.parse text = ⟨[read]⟩)
    (hsame : read.mapSpans (Span.shift item.span.start) = item) :
    Excerpt query item text read where
  cut := hcut
  alone := halone
  clean := by
    have herrors := read.errors_mapSpans (Span.shift item.span.start)
    rw [hsame, hclean] at herrors
    rw [halone, QueryTree.errors, listErrors, listErrors, List.append_nil]
    exact List.map_eq_nil_iff.1 herrors.symm
  same := hsame
  numbers := by
    obtain ⟨front, back, hnodes, hlists⟩ := hasPart_flattenList 0 _ item hitem
    have hadd := item.flatten_add front.length 0
    have hflat := read.flatten_mapSpans (Span.shift item.span.start) 0
    rw [hsame] at hflat
    rw [Nat.zero_add, ← Nat.add_zero front.length, hadd, hflat] at hnodes hlists
    refine ⟨front, back, (read.flatten 0).1, hnodes.trans ?_, ?_, hlists⟩
    · rw [halone]
      simp [QueryTree.arena, flattenList, Function.comp_def]
    · rw [halone]
      rfl

/-- On the walk through errors there is nothing but them. -/
theorem eq_invalid_of_mem_listWalk {more : List SelectItem} (h : j ∈ listWalk more)
    (hmore : ∀ i ∈ more, ∃ e discarded, i = .invalid e discarded) :
    ∃ e discarded, j = .invalid e discarded := by
  induction more with
  | nil => cases h
  | cons i more ih =>
    obtain ⟨⟨e, discarded, rfl⟩, hrest⟩ := List.forall_mem_cons.1 hmore
    obtain hj | hj := List.mem_append.1 h
    · exact ⟨e, discarded, List.mem_singleton.1 hj⟩
    · exact ih hj hrest

namespace Parser

/-- The items of a query lie on its tokens; an error may follow them. -/
theorem parse_liesOn (query : String) :
    ∃ used after items more, (Lexer.ofQuery query).tokens = used ++ after ∧
      LiesOnList used items ∧ (QueryTree.parse query).items = items ++ more ∧
      ∀ i ∈ more, ∃ e discarded, i = .invalid e discarded := by
  obtain ⟨used, hmoves, hlies⟩ : ∃ used, Moves (ofQuery query) used (topItems (ofQuery query)).2 ∧
      LiesOnList used (topItems (ofQuery query)).1 := by
    unfold topItems
    split
    · exact ⟨[], .refl rfl, .nil⟩
    · exact (readList_liesOn rfl rfl).2
  rw [QueryTree.parse, parse_eq]
  split
  · exact ⟨used, _, _, [], hmoves.rest, hlies, (List.append_nil _).symm, by simp⟩
  · exact ⟨used, _, _, _, hmoves.rest, hlies, rfl, by simp⟩

/-- The span of an item without an error cuts a text out of the query that is read as just this
item, up to places and numbers, wherever the item stands. The spans of the items without an error in
one list go up and do not touch, and each lies strictly inside the span of the block that has the
list. -/
theorem parse_excerpts (query : String) :
    (∀ item ∈ listWalk (QueryTree.parse query).items, item.errors = [] →
        ∃ text read, Excerpt query item text read) ∧
      ((QueryTree.parse query).items.Pairwise fun i j =>
        i.errors = [] → j.errors = [] → i.span.stop < j.span.start) ∧
      ∀ resource items, .block resource items ∈ listWalk (QueryTree.parse query).items →
        (items.Pairwise fun i j =>
            i.errors = [] → j.errors = [] → i.span.stop < j.span.start) ∧
          ∀ i ∈ items, i.errors = [] →
            resource.span.start < i.span.start ∧ i.span.stop < resource.span.stop := by
  obtain ⟨used, after, items, more, htokens, hlies, hitems, hmore⟩ := parse_liesOn query
  have hsolid : Tokens.Solid ([] ++ used ++ after) :=
    htokens ▸ (Lexer.splits_tokens (Lexer.ofQuery query)).solid
  -- What follows the items is no item without an error, and has none inside it.
  have hfaulty (i : SelectItem) (hi : i ∈ more) : i.errors ≠ [] := by
    obtain ⟨e, discarded, rfl⟩ := hmore i hi
    exact List.cons_ne_nil _ _
  have hwalk {j : SelectItem} (hj : j ∈ listWalk (QueryTree.parse query).items)
      (hvalid : ∀ e discarded, j ≠ .invalid e discarded) : j ∈ listWalk items := by
    rw [hitems, listWalk_append] at hj
    refine (List.mem_append.1 hj).resolve_right fun hj => ?_
    obtain ⟨e, discarded, hinvalid⟩ := eq_invalid_of_mem_listWalk hj hmore
    exact hvalid e discarded hinvalid
  refine ⟨fun item hitem hclean => ?_, ?_, fun resource inner hblock => ?_⟩
  · have hvalid (e : ParseError) (discarded : List SelectItem) : item ≠ .invalid e discarded := by
      rintro rfl
      cases hclean
    obtain ⟨before, us, behind, rfl, hpart⟩ := hlies.exists_part (hwalk hitem hvalid)
    have hnesting : item.nesting ≤ maxDepth :=
      Nat.le_trans (nesting_le_of_mem_listWalk _ item hitem) (nesting_parse rfl)
    rw [List.append_assoc] at htokens
    obtain ⟨text, read, hcut, halone, hsame⟩ := hpart.reread htokens hclean hnesting
    exact ⟨text, read, .of_alone hitem hclean hcut halone hsame⟩
  · rw [hitems, List.pairwise_append]
    refine ⟨hlies.ordered hsolid.of_append, ?_, fun i _ j hj _ hclean => ?_⟩
    · exact List.pairwise_of_forall_mem_list fun i hi _ _ hclean => absurd hclean (hfaulty i hi)
    · exact absurd hclean (hfaulty j hj)
  · obtain ⟨before, us, behind, rfl, hpart⟩ := hlies.exists_part (hwalk hblock (by simp))
    have hpartSolid : Tokens.Solid us := hsolid.of_append.of_append
    exact ⟨hpart.ordered hpartSolid, fun i hi hclean => hpart.encloses hpartSolid hi hclean⟩

end Parser

end EmbedQuery
