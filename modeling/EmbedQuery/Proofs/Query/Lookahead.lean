import EmbedQuery.Proofs.Query.Completion

/-!
# Looking at one token

Reading never looks behind the next token. So what was read up to a place is read like that whatever
tokens there are behind the token at that place, and a query that stops the reading at a token stops
it there with anything else behind that token (`halted_parse_of_isPrefix`). Before the token the
query can still be finished, so the error is about the first token that no query goes on with
(`unexpected_earliest`).

`Steady run p out q` is the invariant: `run` took the parser from `p` to `q` with the outcome `out`,
and does the same with other tokens behind the next one. It passes on from step to step
(`Steady.trans`), so there is one lemma for each reading step, and for lists an induction on their
bound.
-/

namespace EmbedQuery

namespace Parser

variable {α β γ ρ ρ' : Type} {p p' q q' r : Parser} {e : ParseError}

/-- The parser, if it stood before other tokens. -/
def withRest (p : Parser) (rest : List Token) : Parser := { p with rest }

/-- The parser `p'` is `p`, with other tokens behind the next one. -/
def Alike (p p' : Parser) : Prop := ∃ rest, rest.head? = p.rest.head? ∧ p' = p.withRest rest

namespace Alike

theorem current (h : Alike p p') : p'.current = p.current := by
  obtain ⟨rest, hhead, rfl⟩ := h
  rw [Parser.current, Parser.current, List.headD_eq_head?_getD, List.headD_eq_head?_getD, ← hhead]
  rfl

theorem peek (h : Alike p p') : p'.peek = p.peek := by
  rw [Parser.peek, Parser.peek, h.current]

theorem unexpected (h : Alike p p') (expected : String) :
    p'.unexpected expected = p.unexpected expected := by
  rw [Parser.unexpected, Parser.unexpected, h.peek, h.current]

theorem previous (h : Alike p p') : p'.previous = p.previous := by
  obtain ⟨rest, -, rfl⟩ := h
  rfl

theorem depth (h : Alike p p') : p'.depth = p.depth := by
  obtain ⟨rest, -, rfl⟩ := h
  rfl

theorem halted (h : Alike p p') : p'.halted = p.halted := by
  obtain ⟨rest, -, rfl⟩ := h
  rfl

end Alike

/-- From `p`, the tokens up to `q` are taken with the outcome `out`, whatever there is behind the
token at `q`. -/
def Steady (run : Parser → ρ) (p : Parser) (out : Parser → ρ) (q : Parser) : Prop :=
  ∃ used, p.rest = used ++ q.rest ∧
    ∀ rest, rest.head? = q.rest.head? → run (p.withRest (used ++ rest)) = out (q.withRest rest)

namespace Steady

variable {run next out : Parser → ρ} {run' out' : Parser → ρ'}

theorem refl : Steady out p out p := ⟨[], rfl, fun _ _ => rfl⟩

/-- Before the step, the parser may be changed without a look at its tokens. -/
theorem after {f : Parser → Parser} (h : Steady run (f p) out q)
    (hf : ∀ rest, f (p.withRest rest) = (f p).withRest rest) :
    Steady (fun p => run (f p)) p out q := by
  obtain ⟨used, hused, hsame⟩ := h
  have hrest : f p = (f p).withRest p.rest := hf p.rest
  refine ⟨used, (congrArg Parser.rest hrest).symm.trans hused, fun rest hhead => ?_⟩
  exact (congrArg run (hf _)).trans (hsame rest hhead)

/-- At the end of the input there are no other tokens. -/
theorem of_rest_eq_nil (h : run p = out q) (hq : q.rest = []) : Steady run p out q := by
  refine ⟨p.rest, by rw [hq, List.append_nil], fun rest hhead => ?_⟩
  rw [hq, List.head?_nil, List.head?_eq_none_iff] at hhead
  rw [hhead, List.append_nil, ← hq]
  exact h

/-- Moving on over the next token. -/
theorem advance : Steady (fun p => out p.advance) p out p.advance := by
  cases hrest : p.rest with
  | nil => exact of_rest_eq_nil rfl (by rw [Parser.advance, hrest]; rfl)
  | cons t more =>
    refine ⟨[t], by rw [Parser.advance, hrest]; rfl, fun rest _ => ?_⟩
    simp [Parser.advance, current, withRest, hrest]

/-- What does the same before the same token is as steady. -/
theorem congr (h : Steady run p out q) (hrun : ∀ p', Alike p p' → next p' = run p') :
    Steady next p out q := by
  obtain ⟨used, hused, hsame⟩ := h
  refine ⟨used, hused, fun rest hhead => (hrun _ ⟨_, ?_, rfl⟩).trans (hsame rest hhead)⟩
  rw [hused, List.head?_append, List.head?_append, hhead]

/-- Steps follow on each other. -/
theorem trans {next : Parser → ρ'} (h : Steady run p out q) (h' : Steady next q out' r)
    (hnext : ∀ p' q', Alike q q' → run p' = out q' → run' p' = next q') :
    Steady run' p out' r := by
  obtain ⟨used, hused, hsame⟩ := h
  obtain ⟨more, hmore, hsame'⟩ := h'
  refine ⟨used ++ more, by rw [hused, hmore, List.append_assoc], fun rest hhead => ?_⟩
  have halike : (more ++ rest).head? = q.rest.head? := by
    rw [hmore, List.head?_append, List.head?_append, hhead]
  rw [List.append_assoc, ← hsame' rest hhead]
  exact hnext _ _ ⟨_, halike, rfl⟩ (hsame _ halike)

end Steady

/-! ### Reading steps -/

/-- The step looks at no more than the token behind those that it takes. -/
structure Predictive (m : Reading α) (p : Parser) : Prop where
  ok : ∀ {a q}, m p = .ok a q → Steady m p (.ok a) q
  error : ∀ {e q}, m p = .error e q → Steady m p (.error e) q

namespace Predictive

theorem pure (a : α) : Predictive (pure a) p where
  ok := by
    rintro _ _ ⟨⟩
    exact .refl
  error := by
    rintro _ _ ⟨⟩

theorem throw (e : ParseError) : Predictive (throw e : Reading α) p where
  ok := by
    rintro _ _ ⟨⟩
  error := by
    rintro _ _ ⟨⟩
    exact .refl

/-- A step that does the same before the same token. -/
theorem congr {m n : Reading α} (hm : Predictive m p) (hsame : ∀ p', Alike p p' → n p' = m p') :
    Predictive n p where
  ok h := (hm.ok ((hsame p ⟨p.rest, rfl, rfl⟩).symm.trans h)).congr hsame
  error h := (hm.error ((hsame p ⟨p.rest, rfl, rfl⟩).symm.trans h)).congr hsame

theorem get {k : Parser → Reading β} (hk : Predictive (k p) p)
    (hsame : ∀ p', Alike p p' → k p' = k p) : Predictive (get >>= k) p :=
  hk.congr fun p' halike => congrFun (hsame p' halike) p'

theorem bind {m : Reading α} {k : α → Reading β} (hm : Predictive m p)
    (hk : ∀ a q, Predictive (k a) q) : Predictive (m >>= k) p where
  ok h := by
    obtain ⟨a, q, hread, h⟩ := bind_eq_ok_iff.1 h
    exact (hm.ok hread).trans ((hk a q).ok h) fun _ _ _ hread => bind_of_ok hread
  error h := by
    obtain hread | ⟨a, q, hread, h⟩ := bind_eq_error_iff.1 h
    · refine (hm.error hread).trans .refl fun p' q' _ hread => ?_
      exact bind_eq_error_iff.2 (Or.inl hread)
    · exact (hm.ok hread).trans ((hk a q).error h) fun _ _ _ hread => bind_of_ok hread

/-- Moving on over the next token. -/
theorem advance (a : α) : Predictive (fun p => .ok a p.advance) p where
  ok := by
    rintro _ _ ⟨⟩
    exact .advance
  error := by
    rintro _ _ ⟨⟩

end Predictive

theorem accept_predictive (kind : TokenKind) : Predictive (accept kind) p := by
  by_cases hpeek : p.peek = kind
  · exact (Predictive.advance true).congr fun p' halike => if_pos (halike.peek.trans hpeek)
  · refine (Predictive.pure false).congr fun p' halike => if_neg ?_
    rwa [halike.peek]

theorem expect_predictive (kind : TokenKind) (expected : String) :
    Predictive (expect kind expected) p := by
  by_cases hpeek : p.peek = kind
  · exact (Predictive.advance ()).congr fun p' halike => if_pos (halike.peek.trans hpeek)
  · refine (Predictive.throw (p.unexpected expected)).congr fun p' halike => ?_
    rw [expect, if_neg (halike.peek ▸ hpeek), halike.unexpected]
    rfl

theorem expectName_predictive (expected : String) : Predictive (expectName expected) p := by
  cases hname : p.peek.asIdentifier with
  | some name =>
    refine (Predictive.advance name).congr fun p' halike => ?_
    rw [expectName, halike.peek, hname]
  | none =>
    refine (Predictive.throw (p.unexpected expected)).congr fun p' halike => ?_
    rw [expectName, halike.peek, hname, halike.unexpected]
    rfl

theorem readName_predictive : Predictive readName p := by
  refine .bind (expectName_predictive _) fun first q => ?_
  refine .bind (accept_predictive _) fun colon q => ?_
  cases colon
  · exact .pure _
  · exact .bind (expectName_predictive _) fun name q => .pure _

theorem readCast_predictive : Predictive readCast p := by
  refine .bind (accept_predictive _) fun found q => ?_
  cases found
  · exact .pure _
  · exact .bind (expectName_predictive _) fun target q => .pure _

theorem readAggregate_predictive : Predictive readAggregate p := by
  refine .bind (accept_predictive _) fun found q => ?_
  cases found
  · exact .pure _
  refine .get ?_ fun p' halike => by rw [halike.current]
  refine .bind (expectName_predictive _) fun function q => ?_
  refine .bind (expect_predictive _ _) fun _ q => ?_
  refine .bind (expect_predictive _ _) fun _ q => ?_
  cases Aggregate.ofName? function with
  | some aggregate => exact .pure _
  | none => exact .pure _

/-- Whether a modifier comes next shows in a mark and the token behind it. -/
theorem EndsModifiers.tail {next rest rest' : List Token} (h : EndsModifiers (next ++ rest))
    (hhead : rest'.head? = rest.head?) (hmark : next = [] → ∀ t ∈ rest.head?, t.kind ≠ .bang) :
    EndsModifiers (next ++ rest') := by
  intro s name span more heq
  match next with
  | [] =>
    rw [List.nil_append] at heq
    exact hmark rfl ⟨.bang, s⟩ (by rw [← hhead, heq]; rfl) rfl
  | [mark] =>
    obtain ⟨rfl, hrest'⟩ : mark = _ ∧ rest' = _ := List.cons_eq_cons.1 heq
    rw [hrest', List.head?_cons] at hhead
    obtain ⟨others, hrest⟩ := List.head?_eq_some_iff.1 hhead.symm
    exact h s name span others (by rw [hrest]; rfl)
  | mark :: word :: next =>
    cases heq
    exact h s name span (next ++ rest) rfl

theorem endModifiers_predictive (modifiers : List (String × Span)) :
    Predictive (endModifiers modifiers) p := by
  refine .bind (accept_predictive _) fun found q => ?_
  cases found
  · exact .pure _
  · exact .get (.throw _) fun p' halike => by rw [halike.unexpected]

/-- What is steady behind the modifiers is so before them, if a mark that comes next is taken. -/
theorem Steady.readModifiers
    {out : Parser → EStateM.Result ParseError Parser (List (String × Span))}
    (h : Steady (endModifiers (takeModifiers p.rest).1) p.behindModifiers out q)
    (hmark : p.behindModifiers.rest = q.rest → ∀ t ∈ q.rest.head?, t.kind ≠ .bang) :
    Steady readModifiers p out q := by
  obtain ⟨used, hused⟩ := exists_takesModifiers p.rest
  obtain ⟨next, hnext, hends⟩ := h
  have hrest : (takeModifiers p.rest).2 = next ++ q.rest := hnext
  refine ⟨used ++ next, by rw [hused.rest, hrest, List.append_assoc], fun rest hhead => ?_⟩
  have hends' : EndsModifiers (next ++ rest) := by
    refine EndsModifiers.tail (hrest ▸ hused.ends) hhead fun hnil => hmark ?_
    rw [hnext, hnil, List.nil_append]
  rw [← hends rest hhead, List.append_assoc, readModifiers_eq, behindModifiers, withRest,
    hused.same _ hends']
  rfl

/-- A mark that no name follows is taken, so that the token behind it is next. -/
theorem readModifiers_predictive : Predictive readModifiers p := by
  have hlook := endModifiers_predictive (p := p.behindModifiers) (takeModifiers p.rest).1
  constructor
  · intro modifiers q h
    rw [readModifiers_eq] at h
    refine (hlook.ok h).readModifiers fun _ t ht hbang => ?_
    obtain ⟨found, r, hfound, hafter⟩ := bind_eq_ok_iff.1 h
    obtain ⟨rfl, -, -⟩ | ⟨rfl, hpeek, rfl⟩ := accept_cases hfound
    · cases hafter
    obtain ⟨rfl, rfl⟩ := pure_eq_ok_iff.1 hafter
    refine hpeek ?_
    rw [peek, current, List.headD_eq_head?_getD, ht]
    exact hbang
  · intro e q h
    rw [readModifiers_eq] at h
    refine (hlook.error h).readModifiers fun hstays t ht => ?_
    obtain ⟨found, r, hfound, hafter⟩ := accept_bind_eq_error h
    obtain ⟨rfl, -, rfl⟩ | ⟨rfl, -, -⟩ := accept_cases hfound
    · cases hafter
      -- Only at the end of the input nothing is taken.
      have htail : p.behindModifiers.rest = p.behindModifiers.rest.tail := hstays
      rw [← hstays] at ht
      cases hrest : p.behindModifiers.rest with
      | nil =>
        rw [hrest] at ht
        cases ht
      | cons mark more => simp [hrest] at htail
    · cases hafter

/-! ### The head of an item -/

theorem readOpening_predictive (resource : Resource) (isCount : Bool) (fault : Option ParseError) :
    Predictive (readOpening resource isCount fault) p := by
  refine .get ?_ fun p' halike => by rw [halike.peek]
  split
  · refine .bind (.advance PUnit.unit) fun _ q => ?_
    refine .bind readCast_predictive fun cast q => ?_
    exact .get (.pure _) fun p' halike => by rw [halike.previous]
  · refine .get ?_ fun p' halike => by rw [halike.depth, halike.previous]
    split
    · exact (Predictive.throw _).congr fun _ _ => rfl
    · exact .pure _

theorem readSuffix_predictive (resource : Resource) (isResource : Bool)
    (fault : Option ParseError) : Predictive (readSuffix resource isResource fault) p := by
  refine .bind readAggregate_predictive fun aggregate q => ?_
  refine .bind readCast_predictive fun cast q => ?_
  exact .get (.pure _) fun p' halike => by rw [halike.previous]

theorem readBody_predictive (resource : Resource) (isResource : Bool) (fault : Option ParseError) :
    Predictive (readBody resource isResource fault) p := by
  refine .bind (accept_predictive _) fun found q => ?_
  cases found
  · exact .bind (readSuffix_predictive _ _ _) fun item q => .pure _
  · exact readOpening_predictive _ _ _

/-- The head of an item looks at no more than the token behind it. -/
theorem head_predictive (p : Parser) : Predictive head p := by
  refine .get ?_ fun p' halike => by rw [halike.current]
  refine .bind (accept_predictive _) fun star q => ?_
  cases star
  case true => exact .pure _
  refine .bind (accept_predictive _) fun colon q => ?_
  refine .bind readName_predictive fun (label, name) q => ?_
  exact .bind readModifiers_predictive fun modifiers q => readBody_predictive _ _ _

/-! ### Items, lists and queries -/

/-- The reader looks at no more than the token behind those that it takes. -/
def Foresees (read : Parser → γ × Parser) (p : Parser) : Prop :=
  Steady read p (Prod.mk (read p).1) (read p).2

theorem close_foresees (resource : Resource) (fault : Option ParseError) (items : List SelectItem)
    (p : Parser) : Foresees (close resource fault items) p := by
  unfold Foresees close
  split
  · next hhalted =>
    refine Steady.refl.congr fun p' halike => ?_
    rw [if_pos (halike.halted.trans hhalted), halike.previous]
  split
  · next hgoes hparen =>
    refine Steady.advance.congr fun p' halike => ?_
    rw [if_neg (halike.halted ▸ hgoes), if_pos (halike.peek.trans hparen), halike.current]
  · next hgoes hparen =>
    refine (Steady.refl.after (f := halt) fun _ => rfl).congr fun p' halike => ?_
    rw [if_neg (halike.halted ▸ hgoes), if_neg (halike.peek ▸ hparen), halike.unexpected]

theorem item_foresees {items : Parser → List SelectItem × Parser} (hitems : ∀ r, Foresees items r)
    (p : Parser) : Foresees (item items) p := by
  unfold Foresees
  match hhead : head p with
  | .error e q =>
    rw [item_error hhead]
    refine ((head_predictive p).error hhead).trans (Steady.refl.after (f := halt) fun _ => rfl) ?_
    exact fun p' q' _ hhead' => item_error hhead'
  | .ok (.complete i) q =>
    rw [item_complete hhead]
    refine ((head_predictive p).ok hhead).trans .refl ?_
    exact fun p' q' _ hhead' => item_complete hhead'
  | .ok (.opening resource fault) q =>
    by_cases hparen : q.peek = .rightParen
    · rw [item_empty hhead hparen]
      refine ((head_predictive p).ok hhead).trans (close_foresees resource fault [] q) ?_
      exact fun p' q' halike hhead' => item_empty hhead' (halike.peek.trans hparen)
    · rw [item_block hhead hparen]
      have hlist : Steady (fun q => items q.enter) q (Prod.mk (items q.enter).1)
          (items q.enter).2 := (hitems q.enter).after (f := enter) fun _ => rfl
      have hclose := (close_foresees resource fault (items q.enter).1 (items q.enter).2.leave).after
        (f := leave) fun _ => rfl
      have hblock : Foresees (fun q =>
          close resource fault (items q.enter).1 (items q.enter).2.leave) q :=
        hlist.trans hclose fun p' q' _ hread => by rw [hread]
      refine ((head_predictive p).ok hhead).trans hblock ?_
      exact fun p' q' halike hhead' => item_block hhead' (halike.peek ▸ hparen)

theorem itemsFrom_foresees (fuel : Nat) (p : Parser) : Foresees (itemsFrom fuel) p := by
  induction fuel generalizing p with
  | zero => exact .refl
  | succ fuel ih =>
    have hitem := item_foresees ih p
    unfold Foresees at hitem ⊢
    rcases hread : item (itemsFrom fuel) p with ⟨i, q⟩
    rw [hread] at hitem
    by_cases hend : q.halted = true ∨ q.peek ≠ .comma
    · rw [itemsFrom_last hread hend]
      refine hitem.trans .refl fun p' q' halike hread' => itemsFrom_last hread' ?_
      rwa [halike.halted, halike.peek]
    · simp only [not_or, ne_eq, Decidable.not_not, Bool.not_eq_true] at hend
      obtain ⟨hgoes, hcomma⟩ := hend
      rw [itemsFrom_comma hread hgoes hcomma]
      have hadvance : Steady (fun q => id q.advance) q id q.advance := .advance
      have hlist : Foresees (fun q => itemsFrom fuel q.advance) q :=
        hadvance.trans (ih q.advance) fun p' q' _ hmoves => congrArg (itemsFrom fuel) hmoves
      have hmore : Foresees (fun q =>
          (i :: (itemsFrom fuel q.advance).1, (itemsFrom fuel q.advance).2)) q :=
        hlist.trans .refl fun p' q' _ hread' => by rw [hread']
      refine hitem.trans hmore fun p' q' halike hread' => ?_
      exact itemsFrom_comma hread' (halike.halted.trans hgoes) (halike.peek.trans hcomma)

/-- The bound of the list reader does not count, as it is large enough. -/
theorem readList_foresees (heof : p.eof.kind = .eof) : Foresees readList p := by
  obtain ⟨used, hused, -⟩ := itemsFrom_foresees (p.rest.length + 1) p
  refine ⟨used, hused, fun rest hhead => ?_⟩
  have hp : itemsFrom (p.rest.length + (used ++ rest).length + 1) p = readList p :=
    itemsFrom_eq_readList heof (by omega)
  have hp' : itemsFrom (p.rest.length + (used ++ rest).length + 1) (p.withRest (used ++ rest)) =
      readList (p.withRest (used ++ rest)) :=
    itemsFrom_eq_readList heof (Nat.lt_succ_of_le (Nat.le_add_left _ _))
  obtain ⟨used', hused', hsame⟩ :=
    itemsFrom_foresees (p.rest.length + (used ++ rest).length + 1) p
  rw [hp] at hused' hsame
  obtain rfl : used = used' := List.append_cancel_right (hused.symm.trans hused')
  exact hp'.symm.trans (hsame rest hhead)

theorem topItems_foresees (heof : p.eof.kind = .eof) : Foresees topItems p := by
  by_cases hpeek : p.peek = .eof
  · have htop : topItems p = ([], p) := if_pos hpeek
    unfold Foresees
    rw [htop]
    exact Steady.refl.congr fun p' halike => if_pos (halike.peek.trans hpeek)
  · have htop : topItems p = readList p := if_neg hpeek
    have hlist := readList_foresees heof
    unfold Foresees at hlist ⊢
    rw [htop]
    exact hlist.congr fun p' halike => if_neg (halike.peek ▸ hpeek)

/-- Reading a query looks at no more than the token at which it ends. -/
theorem parse_foresees (heof : p.eof.kind = .eof) : Foresees parse p := by
  have htop := topItems_foresees heof
  unfold Foresees at htop ⊢
  rcases hread : topItems p with ⟨items, q⟩
  rw [hread] at htop
  rw [parse_eq, hread]
  by_cases hend : (q.halted || q.peek = .eof) = true
  · rw [if_pos hend]
    refine htop.trans .refl fun p' q' halike hread' => ?_
    rw [parse_eq, hread', if_pos]
    simpa [halike.halted, halike.peek] using hend
  · rw [if_neg hend]
    refine htop.trans (Steady.refl.after (f := halt) fun _ => rfl) fun p' q' halike hread' => ?_
    rw [parse_eq, hread', if_neg, halike.unexpected]
    simpa [halike.halted, halike.peek] using hend

/-! ### The first wrong token -/

/-- A query that begins with the tokens up to the one at which another stopped stops there, too. -/
theorem halted_parse_of_isPrefix {query query' : String} {used : List Token}
    (hused : (ofQuery query).rest = used ++ (ofQuery query).parse.2.rest)
    (hhalted : (ofQuery query).parse.2.halted = true)
    (hbegins : (used ++ [(ofQuery query).parse.2.current]).map Token.kind <+:
      (tokenize query').map Token.kind) : (ofQuery query').parse.2.halted = true := by
  have hkinds : (ofQuery query).rest.map Token.kind = kindsOf query.toList := map_kind_tokens _
  have heof : .eof ∉ kindsOf query'.toList := isRead_of_mem_kindsOf .eof
  rw [map_kind_tokenize, List.map_append] at hbegins
  cases hrest : (ofQuery query).parse.2.rest with
  | nil =>
    -- At the end of the input it is the same tokens.
    have hcurrent : (ofQuery query).parse.2.current.kind = .eof := by
      rw [current, hrest, (parse_reaches (ofQuery query)).eof]
      rfl
    rw [hused, hrest, List.append_nil] at hkinds
    rw [hkinds, List.map_singleton, hcurrent] at hbegins
    have hsame : kindsOf query'.toList = kindsOf query.toList := by
      obtain heq | hbegins := List.prefix_concat_iff.1 hbegins
      · exact (List.append_cancel_right heq).symm
      · exact absurd (hbegins.subset (by simp)) heof
    rwa [halted_parse_ofQuery, hsame, ← halted_parse_ofQuery]
  | cons t more =>
    have hcurrent : (ofQuery query).parse.2.current = t := by
      rw [current, hrest]
      rfl
    have ht : t.kind ∈ kindsOf query.toList := by
      rw [← hkinds, hused, hrest]
      simp
    rw [hcurrent, List.map_singleton] at hbegins
    obtain ⟨ks, hks⟩ : used.map Token.kind ++ [t.kind] <+: kindsOf query'.toList := by
      obtain heq | hbegins := List.prefix_concat_iff.1 hbegins
      · have hkind : t.kind = .eof := List.singleton_inj.1 (List.append_inj_right' heq rfl)
        exact (isRead_of_mem_kindsOf .eof (hkind ▸ ht)).elim
      · exact hbegins
    obtain ⟨used', hused', hsame⟩ := parse_foresees (p := ofQuery query) rfl
    obtain rfl : used = used' := List.append_cancel_right (hused.symm.trans hused')
    have hother := hsame (t :: ks.map (⟨·, {}⟩)) (by rw [hrest]; rfl)
    have hkinds' : kindsOf query'.toList =
        ((ofQuery query).withRest (used ++ t :: ks.map (⟨·, {}⟩))).rest.map Token.kind := by
      rw [← hks]
      simp [withRest, Function.comp_def]
    rw [halted_parse_ofQuery, hkinds', ← halted_parse_eq rfl rfl rfl, hother]
    exact hhalted

/-- An error about a token is about the first one that is wrong: it is one token of the query, with
its kind and its place; the tokens before it are the beginning of some query that is read to its
end; and a query that begins with them and this one is not. -/
theorem unexpected_earliest (query : String) (e : ParseError) (kind : TokenKind)
    (he : e ∈ (QueryTree.parse query).errors) (hfound : e.found = some kind) :
    ∃ i, (∀ j, (tokenize query)[j]? = some ⟨kind, e.span⟩ ↔ j = i) ∧
      (∃ finished : String,
        ((tokenize query).take i).map Token.kind <+: (tokenize finished).map Token.kind ∧
          (ofQuery finished).parse.2.halted = false) ∧
      ∀ other : String,
        ((tokenize query).take (i + 1)).map Token.kind <+: (tokenize other).map Token.kind →
          (ofQuery other).parse.2.halted = true := by
  have hfound' : e.found ≠ none := by simp [hfound]
  obtain ⟨⟨expected, rfl⟩, used, hused, finished, hbegins, hfinished⟩ :=
    parse_completes query he hfound'
  have hhalted : (ofQuery query).parse.2.halted = true := by
    by_contra hgoes
    exact not_isRecoverable_of_found hfound'
      ((parse_reports rfl rfl).goes (Bool.eq_false_iff.2 hgoes) _ he)
  obtain rfl : (ofQuery query).parse.2.peek = kind := Option.some.inj hfound
  obtain ⟨us, htokens⟩ := exists_tokenize_eq hused
  have hget : (tokenize query)[used.length]? = some (ofQuery query).parse.2.current := by
    rw [htokens, List.getElem?_append_right (Nat.le_refl _), Nat.sub_self]
    rfl
  refine ⟨used.length, fun j => ⟨fun hj => ?_, fun hj => ?_⟩, ⟨finished, ?_, hfinished⟩,
    fun other hother => ?_⟩
  · obtain ⟨hlt, -⟩ := List.getElem?_eq_some_iff.1 hj
    exact (List.getElem?_inj hlt (nodup_tokenize query)).1 (hj.trans hget.symm)
  · rw [hj]
    exact hget
  · rw [htokens, List.take_left, map_kind_tokenize]
    exact hbegins.trans (List.prefix_append _ _)
  · refine halted_parse_of_isPrefix hused hhalted ?_
    rwa [htokens, List.take_length_add_append] at hother

/-- In `a, b(c d)` it is the second name in the block. -/
theorem unexpected_earliest_second :
    (∃ e ∈ (QueryTree.parse "a, b(c d)").errors, e.found = some (.identifier "d") ∧
      ∃ i, (∀ j, (tokenize "a, b(c d)")[j]? = some ⟨.identifier "d", e.span⟩ ↔ j = i) ∧
        (∃ finished : String,
          ((tokenize "a, b(c d)").take i).map Token.kind <+: (tokenize finished).map Token.kind ∧
            (ofQuery finished).parse.2.halted = false) ∧
        ∀ other : String,
          ((tokenize "a, b(c d)").take (i + 1)).map Token.kind <+:
              (tokenize other).map Token.kind →
            (ofQuery other).parse.2.halted = true) := by
  have he : ⟨.unexpected "',' or ')'" (.identifier "d"), ⟨7, 8⟩⟩ ∈
      (QueryTree.parse "a, b(c d)").errors := by decide +kernel
  exact ⟨_, he, rfl, unexpected_earliest "a, b(c d)" _ _ he rfl⟩

end Parser

end EmbedQuery
