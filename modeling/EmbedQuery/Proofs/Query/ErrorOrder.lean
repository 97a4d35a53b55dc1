import EmbedQuery.Proofs.Query.Stopping
import EmbedQuery.Proofs.Query.Taken
import EmbedQuery.Proofs.Token.Lossless

/-!
# Errors in query order

The errors of a query lie on its tokens, one behind the other, and nothing follows one that ended
the reading (`Parser.errors_inOrder`).

Each error lies on one token, or on all tokens of its item (`Placed`), and the errors of two parts
of a query lie on different tokens, those of the first before those of the second: so errors are
placed on a list of tokens (`Places`) and the lists are put one behind the other. `Reports p q
errors` is the invariant: what was read between `p` and `q` has these errors. They lie on the tokens
taken in between and the token at which the reading stopped, if it did, and only an error about
where it stopped is not followed by others.
-/

namespace EmbedQuery

/-! ### Spans on tokens -/

/-- The spans lie on the tokens, one behind the other. -/
inductive Places : List Token → List Span → Prop
  | nil (ts : List Token) : Places ts []
  | skip (ts : List Token) {us : List Token} {spans : List Span} (hmore : Places us spans) :
      Places (ts ++ us) spans
  | cons {ts us : List Token} {s : Span} {spans : List Span} (hplaced : Placed ts s)
      (hmore : Places us spans) : Places (ts ++ us) (s :: spans)

namespace Places

variable {ts us : List Token} {spans spans' : List Span}

theorem append (h : Places ts spans) (h' : Places us spans') :
    Places (ts ++ us) (spans ++ spans') := by
  induction h with
  | nil ts => exact .skip ts h'
  | skip ts _ ih =>
    rw [List.append_assoc]
    exact .skip ts ih
  | cons hplaced _ ih =>
    rw [List.append_assoc]
    exact .cons hplaced ih

theorem append_right (h : Places ts spans) (us : List Token) : Places (ts ++ us) spans := by
  have happend := h.append (.nil us)
  rwa [List.append_nil] at happend

theorem single {s : Span} (h : Placed ts s) : Places ts [s] := by
  have hcons := Places.cons h (.nil [])
  rwa [List.append_nil] at hcons

end Places

/-- The token `t` stands behind `s`, which is not empty. -/
def Token.Before (s t : Token) : Prop := s.span.start < s.span.stop ∧ s.span.stop ≤ t.span.start

/-- Tokens that stand one behind the other; the last may be empty. -/
structure Tokens.InOrder (ts : List Token) : Prop where
  before : ts.Pairwise Token.Before
  forward : ∀ t ∈ ts, t.span.start ≤ t.span.stop

namespace Tokens.InOrder

variable {ts us : List Token} {spans : List Span} {s : Span}

theorem left (h : InOrder (ts ++ us)) : InOrder ts where
  before := (List.pairwise_append.1 h.before).1
  forward t ht := h.forward t (List.mem_append_left _ ht)

theorem right (h : InOrder (ts ++ us)) : InOrder us where
  before := (List.pairwise_append.1 h.before).2.1
  forward t ht := h.forward t (List.mem_append_right _ ht)

/-- A span on tokens goes from the start of one to the stop of one. -/
theorem exists_of_placed (h : InOrder ts) (hs : Placed ts s) :
    ∃ first ∈ ts, ∃ last ∈ ts, s = ⟨first.span.start, last.span.stop⟩ ∧ s.start ≤ s.stop := by
  rcases hs with ⟨t, ht, rfl⟩ | ⟨first, last, hfirst, hlast, rfl⟩
  · exact ⟨t, ht, t, ht, rfl, h.forward t ht⟩
  have hfirst' : first ∈ ts := List.mem_of_mem_head? hfirst
  have hlast' : last ∈ ts := List.mem_of_getLast? hlast
  refine ⟨first, hfirst', last, hlast', ?_⟩
  have hle := h.forward first hfirst'
  have hle' := h.forward last hlast'
  obtain ⟨more, rfl⟩ := List.head?_eq_some_iff.1 hfirst
  have hbounds : first.span.start ≤ last.span.start ∧ first.span.stop ≤ last.span.stop := by
    rcases List.mem_cons.1 hlast' with rfl | hmem
    · exact ⟨Nat.le_refl _, Nat.le_refl _⟩
    · obtain ⟨hpos, hbefore⟩ := (List.pairwise_cons.1 h.before).1 last hmem
      omega
  simp only [Span.cover, Nat.min_eq_left hbounds.1, Nat.max_eq_right hbounds.2, true_and]
  omega

/-- Spans on tokens go from the start of one to the stop of one. -/
theorem exists_of_places (hplaces : Places ts spans) (h : InOrder ts) :
    ∀ s ∈ spans, ∃ first ∈ ts, ∃ last ∈ ts,
      s = ⟨first.span.start, last.span.stop⟩ ∧ s.start ≤ s.stop := by
  induction hplaces with
  | nil => simp
  | skip ts _ ih =>
    intro s hs
    obtain ⟨first, hfirst, last, hlast, hspan⟩ := ih h.right s hs
    exact ⟨first, List.mem_append_right _ hfirst, last, List.mem_append_right _ hlast, hspan⟩
  | cons hplaced _ ih =>
    refine List.forall_mem_cons.2 ⟨?_, fun s hs => ?_⟩
    · obtain ⟨first, hfirst, last, hlast, hspan⟩ := h.left.exists_of_placed hplaced
      exact ⟨first, List.mem_append_left _ hfirst, last, List.mem_append_left _ hlast, hspan⟩
    · obtain ⟨first, hfirst, last, hlast, hspan⟩ := ih h.right s hs
      exact ⟨first, List.mem_append_right _ hfirst, last, List.mem_append_right _ hlast, hspan⟩

/-- Spans on tokens one behind the other go up and do not overlap. -/
theorem pairwise_of_places (hplaces : Places ts spans) (h : InOrder ts) :
    spans.Pairwise fun s t => s.start < t.start ∧ s.stop ≤ t.start := by
  induction hplaces with
  | nil => exact .nil
  | skip ts _ ih => exact ih h.right
  | cons hplaced hmore ih =>
    refine .cons (fun s hs => ?_) (ih h.right)
    obtain ⟨first, hfirst, last, hlast, rfl, -⟩ := h.left.exists_of_placed hplaced
    obtain ⟨first', hfirst', last', -, rfl, -⟩ := exists_of_places hmore h.right s hs
    have hbetween := (List.pairwise_append.1 h.before).2.2
    obtain ⟨hpos, hle⟩ := hbetween first hfirst first' hfirst'
    exact ⟨Nat.lt_of_lt_of_le hpos hle, (hbetween last hlast first' hfirst').2⟩

end Tokens.InOrder

/-- The tokens of a query stand one behind the other; only the end of the input is empty. -/
theorem inOrder_tokenize (query : String) : Tokens.InOrder (tokenize query) := by
  have hlossless := lossless query
  obtain ⟨tokens, htokens, hfull⟩ := hlossless.last
  have hincreasing := hlossless.increasing
  rw [htokens] at hincreasing ⊢
  obtain ⟨hfront, -, hlast⟩ := List.pairwise_append.1 hincreasing
  refine ⟨List.pairwise_append.2 ⟨?_, List.pairwise_singleton _ _, ?_⟩, ?_⟩
  · exact hfront.imp_of_mem fun hs _ hle => ⟨(hfull _ hs).2, hle⟩
  · intro s hs t ht
    exact ⟨(hfull s hs).2, hlast s hs t ht⟩
  · intro t ht
    rcases List.mem_append.1 ht with ht | ht
    · exact Nat.le_of_lt (hfull t ht).2
    · rw [List.mem_singleton.1 ht]
      exact Nat.le_refl _

/-- No token of a query comes twice. -/
theorem nodup_tokenize (query : String) : (tokenize query).Nodup := by
  refine (inOrder_tokenize query).before.imp ?_
  rintro t _ ⟨hpos, hle⟩ rfl
  omega

/-- From the start of a token to the stop of one, the query has a text. -/
theorem exists_text {query : String} {first last : Token} (hfirst : first ∈ tokenize query)
    (hlast : last ∈ tokenize query) (hle : first.span.start ≤ last.span.stop) :
    ∃ text, Span.text ⟨first.span.start, last.span.stop⟩ query = some text := by
  obtain ⟨front, text, back, hquery, hspan, -⟩ := (lossless query).separate first hfirst
  obtain ⟨front', text', back', hquery', hspan', -⟩ := (lossless query).separate last hlast
  have hbegins : front <+: query.toList := ⟨_, hquery.symm⟩
  have hbegins' : front' ++ text' <+: query.toList := ⟨back', by rw [hquery', List.append_assoc]⟩
  have hstart : first.span.start = byteLength front := by rw [hspan]
  have hstop : last.span.stop = byteLength (front' ++ text') := by rw [hspan', byteLength_append]
  rw [hstart, hstop] at hle ⊢
  rcases List.prefix_or_prefix_of_prefix hbegins hbegins' with ⟨between, hbetween⟩ | ⟨more, hmore⟩
  · rw [← hbetween, byteLength_append]
    obtain ⟨rest, hrest⟩ := hbegins'
    have hquery : query.toList = front ++ (between ++ rest) := by
      rw [← hrest, ← hbetween, List.append_assoc]
    exact ⟨_, Span.text_eq front between hquery⟩
  · -- The stop lies before the start only if they are the same.
    have hlength := congrArg byteLength hmore
    rw [byteLength_append] at hlength
    have hsame : byteLength (front' ++ text') = byteLength front + byteLength [] := by
      rw [byteLength_nil]
      omega
    rw [hsame]
    exact ⟨_, Span.text_eq front [] hquery⟩

/-! ### Items in depth-first order -/

mutual

/-- An item and the items of the lists in it, each before those of its list. What an error discarded
is not looked into. -/
def SelectItem.walk : SelectItem → List SelectItem
  | .block resource items => .block resource items :: listWalk items
  | .wildcard span => [.wildcard span]
  | .column column => [.column column]
  | .count label cast span => [.count label cast span]
  | .bare resource => [.bare resource]
  | .invalid error discarded => [.invalid error discarded]

/-- The items of a list and of the lists in it, in depth-first order. -/
def listWalk : List SelectItem → List SelectItem
  | [] => []
  | item :: items => item.walk ++ listWalk items

end

theorem listWalk_append (items more : List SelectItem) :
    listWalk (items ++ more) = listWalk items ++ listWalk more := by
  induction items with
  | nil => rfl
  | cons item items ih => rw [List.cons_append, listWalk, listWalk, ih, List.append_assoc]

/-- The walk through a list ends with the walk through its last item. -/
theorem getLast?_listWalk {items : List SelectItem} {item last : SelectItem}
    (hitem : items.getLast? = some item) (hlast : item.walk.getLast? = some last) :
    (listWalk items).getLast? = some last := by
  obtain ⟨before, rfl⟩ := List.getLast?_eq_some_iff.1 hitem
  rw [listWalk_append, listWalk, listWalk, List.append_nil, List.getLast?_append, hlast]
  rfl

/-- Where the error that stopped the reading is told, the walk ends with it. -/
theorem StopsAt.getLast?_walk {e : ParseError} {hidden : Bool} {item : SelectItem}
    (h : StopsAt e hidden item) (hshown : hidden = false) :
    ∃ discarded, item.walk.getLast? = some (.invalid e discarded) := by
  induction h with
  | here discarded => exact ⟨discarded, rfl⟩
  | inside resource hlast _ ih =>
    obtain ⟨discarded, hwalk⟩ := ih hshown
    refine ⟨discarded, ?_⟩
    rw [SelectItem.walk, List.getLast?_cons, getLast?_listWalk hlast hwalk]
    rfl
  | behind => cases hshown

/-! ### What reading reports -/

namespace Parser

variable {p q r : Parser} {used : List Token} {errors more : List ParseError} {fuel : Nat}

/-- The token at which the reading stopped, if it did. -/
def stopTokens (q : Parser) : List Token := if q.halted then [q.current] else []

/-- What was read between `p` and `q` has these errors. They lie on the tokens in between and on the
token at which the reading stopped, if it did. Reading goes on behind all of them, except for the
last one where the reading stopped with it. -/
structure Reports (p q : Parser) (errors : List ParseError) : Prop where
  places : ∃ used, p.rest = used ++ q.rest ∧
    Places (used ++ q.stopTokens) (errors.map ParseError.span)
  goes : q.halted = false → ∀ e ∈ errors, e.IsRecoverable
  before : ∀ e ∈ errors.dropLast, e.IsRecoverable
  stops : ∀ e ∈ errors, e.IsRecoverable ∨ q.StoppedBy e

namespace Reports

theorem of_recoverable (hrest : p.rest = used ++ q.rest)
    (hplaces : Places used (errors.map ParseError.span)) (h : ∀ e ∈ errors, e.IsRecoverable) :
    Reports p q errors where
  places := ⟨used, hrest, hplaces.append_right _⟩
  goes _ := h
  before e he := h e ((List.dropLast_sublist _).subset he)
  stops e he := Or.inl (h e he)

/-- Between two places there may be tokens without an error. -/
theorem nil (hrest : p.rest = used ++ q.rest) : Reports p q [] :=
  of_recoverable hrest (.nil _) (by simp)

theorem refl : Reports p p [] := nil (List.nil_append _).symm

theorem of_stopped {e : ParseError} (hq : q.halted = true) (hrest : p.rest = used ++ q.rest)
    (hplaced : Placed (used ++ [q.current]) e.span) (h : q.StoppedBy e) : Reports p q [e] where
  places := by
    refine ⟨used, hrest, ?_⟩
    rw [stopTokens, if_pos hq]
    exact .single hplaced
  goes hgoes := by
    rw [hq] at hgoes
    cases hgoes
  before := by simp
  stops e' he' := by
    rw [List.mem_singleton.1 he']
    exact Or.inr h

/-- Where the reading goes on, the errors behind come behind. -/
theorem append (h : Reports p q errors) (hq : q.halted = false) (h' : Reports q r more) :
    Reports p r (errors ++ more) where
  places := by
    obtain ⟨used, hrest, hplaces⟩ := h.places
    obtain ⟨used', hrest', hplaces'⟩ := h'.places
    rw [stopTokens, hq, if_neg Bool.false_ne_true, List.append_nil] at hplaces
    refine ⟨used ++ used', by rw [hrest, hrest', List.append_assoc], ?_⟩
    rw [List.append_assoc, List.map_append]
    exact hplaces.append hplaces'
  goes hr := List.forall_mem_append.2 ⟨h.goes hq, h'.goes hr⟩
  before e he := by
    by_cases hmore : more = []
    · rw [hmore, List.append_nil] at he
      exact h.before e he
    · rw [List.dropLast_append_of_ne_nil hmore] at he
      exact List.forall_mem_append.2 ⟨h.goes hq, h'.before⟩ e he
  stops := List.forall_mem_append.2 ⟨fun e he => Or.inl (h.goes hq e he), h'.stops⟩

end Reports

/-- A block has its fault as an error, or the errors of its list. -/
theorem close_reports {resource : Resource} {fault : Option ParseError} {items : List SelectItem}
    {s : Parser} (hrest : p.rest = used ++ r.rest) (hr : r.halted = false)
    (hfault : ∀ e, fault = some e → e.IsRecoverable ∧ Placed used e.span)
    (hitems : Reports r s (listErrors items)) (heof : s.eof.kind = .eof) :
    Reports p (close resource fault items s).2 (close resource fault items s).1.errors := by
  obtain ⟨inner, hinner, -⟩ := hitems.places
  have hlist : Reports p s (listErrors items) := (Reports.nil hrest).append hr hitems
  -- A fault lies before the list, and then nothing is told of that.
  have htold (q : Parser) (resource : Resource) (hnext : ∃ next, s.rest = next ++ q.rest)
      (hq : fault = none → Reports p q (listErrors items)) :
      Reports p q (itemOr fault (.block resource items)).errors := by
    cases fault with
    | none => exact hq rfl
    | some e =>
      obtain ⟨hrecoverable, hplaced⟩ := hfault e rfl
      obtain ⟨next, hnext⟩ := hnext
      have hrest' : p.rest = used ++ (inner ++ next) ++ q.rest := by
        rw [hrest, hinner, hnext]
        simp
      refine .of_recoverable hrest' (Places.append_right (.single hplaced) _) ?_
      intro e' he'
      rwa [List.mem_singleton.1 he']
  unfold close
  split
  · exact htold s _ ⟨[], rfl⟩ fun _ => hlist
  split
  · next hgoes hparen =>
    have hs : s.halted = false := Bool.eq_false_iff.2 hgoes
    have hmoves := (Moves.refl heof).advance (hparen ▸ TokenKind.noConfusion)
    refine htold s.advance _ ⟨_, hmoves.rest⟩ fun _ => ?_
    have hadvance := hlist.append hs (Reports.nil hmoves.rest)
    rwa [List.append_nil] at hadvance
  · have hrest' : p.rest = used ++ inner ++ s.halt.rest := by
      rw [hrest, hinner, List.append_assoc]
      rfl
    refine .of_stopped rfl hrest' ?_ (Or.inl ⟨_, rfl⟩)
    exact .of_mem (List.mem_append_right _ (List.mem_singleton_self _))

/-- What an item reports. -/
theorem item_reports {items : Parser → List SelectItem × Parser}
    (hitems : ∀ r, r.eof.kind = .eof → r.halted = false →
      Reports r (items r).2 (listErrors (items r).1) ∧ (items r).2.eof.kind = .eof)
    (heof : p.eof.kind = .eof) (hp : p.halted = false) :
    Reports p (item items p).2 (item items p).1.errors := by
  match hhead : head p with
  | .error e q =>
    rw [item_error hhead]
    obtain ⟨used, hmoves, hfails⟩ := head_error heof hhead
    refine .of_stopped rfl hmoves.rest ?_ ((head_reads p).error hhead).1
    rcases hfails with ⟨⟨expected, rfl⟩, -⟩ | ⟨rfl, hne⟩
    · exact .of_mem (List.mem_append_right _ (List.mem_singleton_self _))
    · obtain ⟨t, ht, hprevious⟩ := hmoves.exists_previous hne
      rw [hprevious]
      exact .of_mem (List.mem_append_left _ (List.mem_of_getLast? ht))
  | .ok (.complete i) q =>
    rw [item_complete hhead]
    obtain ⟨used, hmoves, htaken⟩ := head_moves heof hhead
    cases htaken with
    | @complete _ fault htokens herrors hfault =>
      rw [herrors]
      cases fault with
      | none => exact .nil hmoves.rest
      | some e =>
        obtain ⟨hrecoverable, hplaced⟩ := hfault e rfl
        refine .of_recoverable hmoves.rest (.single hplaced) ?_
        intro e' he'
        rwa [List.mem_singleton.1 he']
  | .ok (.opening resource fault) q =>
    have hq : q.halted = false := ((head_reads p).halted_eq hhead).trans hp
    obtain ⟨used, hmoves, htaken⟩ := head_moves heof hhead
    cases htaken with
    | opening f htokens hcount hdepth hfault =>
      by_cases hparen : q.peek = .rightParen
      · rw [item_empty hhead hparen]
        exact close_reports hmoves.rest hq hfault .refl hmoves.isEof
      · rw [item_block hhead hparen]
        obtain ⟨hlist, hlast⟩ := hitems q.enter hmoves.isEof hq
        have hleave : Reports q (items q.enter).2.leave (listErrors (items q.enter).1) :=
          ⟨hlist.places, hlist.goes, hlist.before, hlist.stops⟩
        exact close_reports hmoves.rest hq hfault hleave hlast

/-- What a list reports. -/
theorem itemsFrom_reports (heof : p.eof.kind = .eof) (hp : p.halted = false) :
    Reports p (itemsFrom fuel p).2 (listErrors (itemsFrom fuel p).1) := by
  induction fuel generalizing p with
  | zero => exact .refl
  | succ fuel ih =>
    have hitem : Reports p (item (itemsFrom fuel) p).2 (item (itemsFrom fuel) p).1.errors :=
      item_reports (fun r hr hgoes => ⟨ih hr hgoes, (itemsFrom_reaches fuel r).eof ▸ hr⟩) heof hp
    have hreaches := item_reaches (itemsFrom_reaches fuel) p
    rcases hread : item (itemsFrom fuel) p with ⟨i, q⟩
    rw [hread] at hitem hreaches
    by_cases hend : q.halted = true ∨ q.peek ≠ .comma
    · rw [itemsFrom_last hread hend, listErrors, listErrors, List.append_nil]
      exact hitem
    · simp only [not_or, ne_eq, Decidable.not_not, Bool.not_eq_true] at hend
      obtain ⟨hgoes, hcomma⟩ := hend
      have hq : q.eof.kind = .eof := hreaches.eof ▸ heof
      rw [itemsFrom_comma hread hgoes hcomma, listErrors]
      have hmoves := (Moves.refl hq).advance (hcomma ▸ TokenKind.noConfusion)
      exact hitem.append hgoes ((Reports.nil hmoves.rest).append hgoes (ih hq hgoes))

/-- What a query reports. -/
theorem parse_reports (heof : p.eof.kind = .eof) (hp : p.halted = false) :
    Reports p p.parse.2 p.parse.1.errors := by
  have htop : Reports p (topItems p).2 (listErrors (topItems p).1) := by
    unfold topItems
    split
    · exact .refl
    · exact itemsFrom_reports heof hp
  rw [parse_eq]
  split
  · exact htop
  · next hend =>
    have hgoes : (topItems p).2.halted = false := by simp_all
    rw [QueryTree.errors, listErrors_append]
    refine htop.append hgoes (.of_stopped rfl (List.nil_append _).symm ?_ (Or.inl ⟨_, rfl⟩))
    exact .of_mem (List.mem_singleton_self _)

/-- The token at which the reading of a query ended is the first one behind those that were read. -/
theorem exists_tokenize_eq {query : String}
    (hused : (ofQuery query).rest = used ++ (ofQuery query).parse.2.rest) :
    ∃ us, tokenize query = used ++ (ofQuery query).parse.2.current :: us := by
  have htokens : tokenize query =
      used ++ ((ofQuery query).parse.2.rest ++ [(ofQuery query).parse.2.eof]) := by
    rw [← List.append_assoc, ← hused, (parse_reaches (ofQuery query)).eof]
    rfl
  rw [htokens, current]
  cases (ofQuery query).parse.2.rest <;> exact ⟨_, rfl⟩

/-- The tokens up to the place where a query was left, and the one at which the reading stopped, are
tokens of the query. -/
theorem exists_places (query : String) :
    ∃ ts us, tokenize query = ts ++ us ∧
      Places ts ((QueryTree.parse query).errors.map ParseError.span) := by
  obtain ⟨used, hused, hplaces⟩ := (parse_reports (p := ofQuery query) rfl rfl).places
  obtain ⟨us, htokens⟩ := exists_tokenize_eq hused
  cases hhalted : (ofQuery query).parse.2.halted with
  | false =>
    rw [stopTokens, hhalted, if_neg Bool.false_ne_true, List.append_nil] at hplaces
    exact ⟨used, _, htokens, hplaces⟩
  | true =>
    rw [stopTokens, hhalted, if_pos rfl] at hplaces
    exact ⟨_, us, by rw [htokens, List.append_assoc]; rfl, hplaces⟩

/-- The errors of a query lie in it, between characters, one behind the other without an overlap.
Reading goes on behind all but the last; and if it does not go on behind the last, then the walk
through the items ends with that error. -/
theorem errors_inOrder (query : String) :
    (∀ e ∈ (QueryTree.parse query).errors, ∃ text, e.span.text query = some text) ∧
      ((QueryTree.parse query).errors.Pairwise fun e f =>
        e.span.start < f.span.start ∧ e.span.stop ≤ f.span.start) ∧
      (∀ e ∈ (QueryTree.parse query).errors.dropLast, e.IsRecoverable) ∧
      ∀ e, (QueryTree.parse query).errors.getLast? = some e → ¬e.IsRecoverable →
        ∃ discarded, (listWalk (QueryTree.parse query).items).getLast? =
          some (.invalid e discarded) := by
  obtain ⟨ts, us, htokens, hplaces⟩ := exists_places query
  have hreports := parse_reports (p := ofQuery query) rfl rfl
  have horder : Tokens.InOrder ts := (htokens ▸ inOrder_tokenize query).left
  refine ⟨fun e he => ?_, ?_, hreports.before, fun e hlast hfatal => ?_⟩
  · obtain ⟨first, hfirst, last, hlast, hspan, hle⟩ :=
      Tokens.InOrder.exists_of_places hplaces horder e.span (List.mem_map_of_mem he)
    have hmem (t : Token) (ht : t ∈ ts) : t ∈ tokenize query := by
      rw [htokens]
      exact List.mem_append_left us ht
    rw [hspan] at hle ⊢
    exact exists_text (hmem first hfirst) (hmem last hlast) hle
  · have hpairwise := Tokens.InOrder.pairwise_of_places hplaces horder
    rwa [List.pairwise_map] at hpairwise
  · have hhalted : (ofQuery query).parse.2.halted = true := by
      by_contra hgoes
      exact hfatal (hreports.goes (Bool.eq_false_iff.2 hgoes) e (List.mem_of_getLast? hlast))
    obtain ⟨item, hitem, e', hidden, -, hstops⟩ := parse_stopped rfl hhalted
    obtain ⟨last, herrors, hshown, hrecoverable⟩ := hstops.getLast?_errors
    have hsame : (QueryTree.parse query).errors.getLast? = some last :=
      getLast?_listErrors hitem herrors
    obtain rfl : last = e := Option.some.inj (hsame.symm.trans hlast)
    -- An error that hides the one that stopped the reading would not end it.
    cases hidden with
    | true => exact absurd (hrecoverable rfl) hfatal
    | false =>
      obtain ⟨discarded, hwalk⟩ := hstops.getLast?_walk rfl
      rw [hshown rfl]
      exact ⟨discarded, getLast?_listWalk hitem hwalk⟩

end Parser

end EmbedQuery
