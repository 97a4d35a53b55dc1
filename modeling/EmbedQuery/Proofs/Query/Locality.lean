import EmbedQuery.Proofs.Query.Lists

/-!
# Reading stops at a comma

A comma ends an item as the end of the input does. So what was read up to the end, without being
stopped, is read alike where the input goes on with a comma, and then the reading goes on behind it
(`readList_followedBy`).

A reading step that does so is `Local`; this passes through `>>=`, and there is one lemma a step. It
also tells that the tokens taken are no complaints: those stop the reading. Inside a block there is
more to read before the comma, and the reading does not come to it (`readList_inside`).
-/

namespace EmbedQuery

/-- Whether an item can have tokens of this kind outside of its list: none that end it, and none
that stop the reading. -/
def TokenKind.IsPart : TokenKind → Prop
  | .comma | .eof | .error _ => False
  | _ => True

namespace Parser

variable {α β : Type} {p q r : Parser}

/-! ### Going on behind a comma -/

/-- Tokens that begin with a comma, up to an end. -/
structure Continuation where
  comma : Token
  more : List Token
  eof : Token
  isComma : comma.kind = .comma
  isEof : eof.kind = .eof

/-- The parser, if its tokens go on with others. -/
def followedBy (p : Parser) (c : Continuation) : Parser :=
  { p with rest := p.rest ++ c.comma :: c.more, eof := c.eof }

/-- The parser `q` stands behind `p` over tokens that are no complaints. -/
def Passes (p q : Parser) : Prop :=
  ∃ used, p.rest = used ++ q.rest ∧ ∀ t ∈ used, ∀ message, t.kind ≠ .error message

theorem Passes.refl : Passes p p := ⟨[], rfl, by simp⟩

theorem Passes.trans (h : Passes p q) (h' : Passes q r) : Passes p r := by
  obtain ⟨used, hused, hkinds⟩ := h
  obtain ⟨used', hused', hkinds'⟩ := h'
  refine ⟨used ++ used', by rw [hused, hused', List.append_assoc], fun t ht => ?_⟩
  obtain ht | ht := List.mem_append.1 ht
  · exact hkinds t ht
  · exact hkinds' t ht

theorem Passes.length_le (h : Passes p q) : q.rest.length ≤ p.rest.length := by
  obtain ⟨used, hused, -⟩ := h
  rw [hused, List.length_append]
  omega

theorem ne_nil_of_isPart (heof : p.eof.kind = .eof) (h : p.peek.IsPart) : p.rest ≠ [] :=
  rest_ne_nil heof fun hpeek => by rwa [hpeek] at h

theorem Passes.advance (hrest : p.rest ≠ []) (h : ∀ message, p.peek ≠ .error message) :
    Passes p p.advance := by
  obtain ⟨first, more, hcons⟩ := List.exists_cons_of_ne_nil hrest
  refine ⟨[first], ?_, fun t ht => ?_⟩
  · rw [Parser.advance, hcons]
    rfl
  · obtain rfl := List.mem_singleton.1 ht
    rwa [peek, current, hcons] at h

theorem current_followedBy (hrest : p.rest ≠ []) (c : Continuation) :
    (p.followedBy c).current = p.current := by
  obtain ⟨first, more, hcons⟩ := List.exists_cons_of_ne_nil hrest
  rw [current, current, followedBy, hcons]
  rfl

theorem peek_followedBy (hrest : p.rest ≠ []) (c : Continuation) :
    (p.followedBy c).peek = p.peek := by
  rw [peek, peek, current_followedBy hrest]

theorem advance_followedBy (hrest : p.rest ≠ []) (c : Continuation) :
    (p.followedBy c).advance = p.advance.followedBy c := by
  obtain ⟨first, more, hcons⟩ := List.exists_cons_of_ne_nil hrest
  simp [advance, followedBy, current, hcons]

/-- At the end, a comma comes next. -/
theorem peek_followedBy_of_nil (hrest : p.rest = []) (c : Continuation) :
    (p.followedBy c).peek = .comma := by
  rw [peek, current, followedBy, hrest]
  exact c.isComma

/-- The end and a comma look alike to an item. -/
theorem peek_followedBy_eq_iff (heof : p.eof.kind = .eof) {kind : TokenKind} (hkind : kind.IsPart)
    (c : Continuation) : (p.followedBy c).peek = kind ↔ p.peek = kind := by
  by_cases hrest : p.rest = []
  · have hpeek : p.peek = .eof := by
      rw [peek, current, hrest]
      exact heof
    rw [peek_followedBy_of_nil hrest, hpeek]
    constructor
    · rintro rfl
      exact hkind.elim
    · rintro rfl
      exact hkind.elim
  · rw [peek_followedBy hrest]

/-- Moving on over a comma between two items. -/
theorem advance_comma (heof : p.eof.kind = .eof) (hcomma : p.peek = .comma) :
    p.advance.rest.length < p.rest.length ∧ Passes p p.advance ∧
      ∀ c, (p.followedBy c).peek = .comma ∧ (p.followedBy c).advance = p.advance.followedBy c := by
  have hne : p.peek ≠ .eof := by rw [hcomma]; exact TokenKind.noConfusion
  have hrest := rest_ne_nil heof hne
  refine ⟨length_advance_lt heof hne, .advance hrest fun message hpeek => ?_, fun c => ?_⟩
  · cases hpeek.symm.trans hcomma
  · exact ⟨(peek_followedBy hrest c).trans hcomma, advance_followedBy hrest c⟩

/-! ### Local steps -/

/-- Where the step succeeds, it takes tokens that are no complaints and does the same if a comma
follows. -/
def Local (m : Reading α) (p : Parser) : Prop :=
  p.eof.kind = .eof → ∀ a q, m p = .ok a q →
    q.eof.kind = .eof ∧ Passes p q ∧ ∀ c, m (p.followedBy c) = .ok a (q.followedBy c)

namespace Local

theorem pure (a : α) : Local (pure a) p := by
  rintro heof _ _ ⟨⟩
  exact ⟨heof, .refl, fun _ => rfl⟩

/-- A step that does not succeed is local. -/
theorem of_fails {m : Reading α} (h : ∀ a q, p.eof.kind = .eof → m p ≠ .ok a q) : Local m p :=
  fun heof a q hm => absurd hm (h a q heof)

theorem get {k : Parser → Reading β} (hsame : ∀ c, p.eof.kind = .eof → k (p.followedBy c) = k p)
    (hk : Local (k p) p) : Local (get >>= k) p := by
  intro heof b q h
  obtain ⟨hq, hpasses, hk⟩ := hk heof b q h
  refine ⟨hq, hpasses, fun c => ?_⟩
  show k (p.followedBy c) (p.followedBy c) = _
  rw [hsame c heof]
  exact hk c

theorem bind {m : Reading α} {k : α → Reading β} (hm : Local m p) (hk : ∀ a q, Local (k a) q) :
    Local (m >>= k) p := by
  intro heof b r h
  obtain ⟨a, q, hread, h⟩ := bind_eq_ok_iff.1 h
  obtain ⟨hq, hpasses, hm⟩ := hm heof a q hread
  obtain ⟨hr, hpasses', hk⟩ := hk a q hq b r h
  exact ⟨hr, hpasses.trans hpasses', fun c => (bind_of_ok (hm c)).trans (hk c)⟩

end Local

/-- Moving on over a token that is part of an item. -/
theorem advance_local (heof : p.eof.kind = .eof) (h : p.peek.IsPart) :
    p.advance.eof.kind = .eof ∧ Passes p p.advance ∧
      ∀ c, (p.followedBy c).advance = p.advance.followedBy c := by
  have hrest := ne_nil_of_isPart heof h
  refine ⟨heof, .advance hrest fun message hpeek => ?_, advance_followedBy hrest⟩
  rw [hpeek] at h
  exact h

theorem accept_local {kind : TokenKind} (hkind : kind.IsPart) : Local (accept kind) p := by
  intro heof found q h
  obtain ⟨rfl, hpeek, rfl⟩ | ⟨rfl, hpeek, rfl⟩ := accept_cases h
  · obtain ⟨heof', hpasses, hadvance⟩ := advance_local heof (hpeek ▸ hkind)
    refine ⟨heof', hpasses, fun c => ?_⟩
    rw [accept, if_pos ((peek_followedBy_eq_iff heof hkind c).2 hpeek), hadvance]
  · refine ⟨heof, .refl, fun c => ?_⟩
    rw [accept, if_neg fun h => hpeek ((peek_followedBy_eq_iff heof hkind c).1 h)]

theorem expect_local {kind : TokenKind} (hkind : kind.IsPart) (expected : String) :
    Local (expect kind expected) p := by
  intro heof found q h
  unfold expect at h
  split at h
  · next hpeek =>
    cases h
    obtain ⟨heof', hpasses, hadvance⟩ := advance_local heof (hpeek ▸ hkind)
    refine ⟨heof', hpasses, fun c => ?_⟩
    rw [expect, if_pos ((peek_followedBy_eq_iff heof hkind c).2 hpeek), hadvance]
  · cases h

theorem expectName_local (expected : String) : Local (expectName expected) p := by
  intro heof name q h
  obtain ⟨hpeek, rfl⟩ := expectName_cases h
  have hpart : p.peek.IsPart := by
    rw [hpeek]
    trivial
  obtain ⟨heof', hpasses, hadvance⟩ := advance_local heof hpart
  refine ⟨heof', hpasses, fun c => ?_⟩
  rw [expectName, (peek_followedBy_eq_iff heof (hpeek ▸ hpart) c).2 hpeek, hadvance]
  rfl

theorem readName_local : Local readName p := by
  refine .bind (expectName_local _) fun first q => ?_
  refine .bind (accept_local trivial) fun colon q => ?_
  cases colon
  · exact .pure _
  · exact .bind (expectName_local _) fun name q => .pure _

theorem readCast_local : Local readCast p := by
  refine .bind (accept_local trivial) fun found q => ?_
  cases found
  · exact .pure _
  · exact .bind (expectName_local _) fun target q => .pure _

theorem readAggregate_local : Local readAggregate p := by
  refine .bind (accept_local trivial) fun found q => ?_
  cases found
  · exact .pure _
  -- The name of the function stands at the place whose span is kept for a complaint.
  by_cases hrest : q.rest = []
  · refine .of_fails fun a r heof h => ?_
    obtain ⟨_, _, hget, h⟩ := bind_eq_ok_iff.1 h
    obtain ⟨rfl, rfl⟩ := get_eq_ok_iff.1 hget
    obtain ⟨function, _, hname, -⟩ := bind_eq_ok_iff.1 h
    obtain ⟨hpeek, -⟩ := expectName_cases hname
    exact rest_ne_nil heof (by rw [hpeek]; exact TokenKind.noConfusion) hrest
  · refine .get (fun c _ => by rw [current_followedBy hrest]) ?_
    refine .bind (expectName_local _) fun function q => ?_
    refine .bind (expect_local (by trivial) _) fun _ q => ?_
    refine .bind (expect_local (by trivial) _) fun _ q => ?_
    cases Aggregate.ofName? function with
    | some aggregate => exact .pure _
    | none => exact .pure _

theorem takeModifiers_followedBy (tokens : List Token) (c : Continuation) :
    takeModifiers (tokens ++ c.comma :: c.more) =
      ((takeModifiers tokens).1, (takeModifiers tokens).2 ++ c.comma :: c.more) := by
  fun_induction takeModifiers tokens with
  | case1 s name span rest modifiers after h ih =>
    rw [h] at ih
    simp [takeModifiers, ih]
  | case2 rest h =>
    refine takeModifiers.eq_2 _ fun s name span more heq => ?_
    have hcomma := c.isComma
    -- Neither the mark nor the name of a modifier can be the comma.
    cases rest with
    | nil =>
      rw [(List.cons_eq_cons.1 heq).1] at hcomma
      cases hcomma
    | cons mark others =>
      obtain ⟨rfl, heq'⟩ := List.cons_eq_cons.1 heq
      cases others with
      | nil =>
        rw [(List.cons_eq_cons.1 heq').1] at hcomma
        cases hcomma
      | cons word others =>
        obtain ⟨rfl, -⟩ := List.cons_eq_cons.1 heq'
        exact h _ _ _ _ rfl

theorem behindModifiers_followedBy (p : Parser) (c : Continuation) :
    (p.followedBy c).behindModifiers = p.behindModifiers.followedBy c := by
  simp only [behindModifiers, followedBy, takeModifiers_followedBy]

theorem behindModifiers_passes (p : Parser) : Passes p p.behindModifiers := by
  obtain ⟨used, hused⟩ := exists_takesModifiers p.rest
  refine ⟨used, hused.rest, fun t ht message hkind => ?_⟩
  have hmem := List.mem_map_of_mem (f := Token.kind) ht
  rw [hused.kinds, hkind] at hmem
  simp [modifiersTokens, modifierTokens] at hmem

theorem endModifiers_local (modifiers : List (String × Span)) :
    Local (endModifiers modifiers) p := by
  refine .bind (accept_local trivial) fun found q => ?_
  cases found
  · exact .pure _
  · exact .of_fails fun _ _ _ h => by cases h

theorem readModifiers_local : Local readModifiers p := by
  intro heof modifiers q h
  rw [readModifiers_eq] at h
  obtain ⟨hq, hpasses, hsame⟩ :=
    endModifiers_local (p := p.behindModifiers) _ heof modifiers q h
  refine ⟨hq, (behindModifiers_passes p).trans hpasses, fun c => ?_⟩
  have htake : (takeModifiers (p.followedBy c).rest).1 = (takeModifiers p.rest).1 := by
    rw [followedBy, takeModifiers_followedBy]
  rw [readModifiers_eq, htake, behindModifiers_followedBy]
  exact hsame c

/-! ### The head of an item -/

theorem readOpening_local (resource : Resource) (isCount : Bool) (fault : Option ParseError) :
    Local (readOpening resource isCount fault) p := by
  refine .get (fun c heof => ?_) ?_
  · have hparen : (p.followedBy c).peek = .rightParen ↔ p.peek = .rightParen :=
      peek_followedBy_eq_iff heof (by trivial) c
    simp only [hparen]
  split
  · next hcount =>
    have hpeek : p.peek = .rightParen := by simp_all
    have hadvance : Local (modify Parser.advance : Reading PUnit) p := by
      rintro heof _ _ ⟨⟩
      obtain ⟨heof', hpasses, hadvance⟩ := advance_local heof (by rw [hpeek]; trivial)
      exact ⟨heof', hpasses, fun c => congrArg (EStateM.Result.ok _) (hadvance c)⟩
    refine .bind hadvance fun _ q => ?_
    refine .bind readCast_local fun cast q => ?_
    exact .get (fun _ _ => rfl) (.pure _)
  · refine .get (fun _ _ => rfl) ?_
    split
    · exact .of_fails fun _ _ _ h => by cases h
    · exact .pure _

theorem readSuffix_local (resource : Resource) (isResource : Bool) (fault : Option ParseError) :
    Local (readSuffix resource isResource fault) p := by
  refine .bind readAggregate_local fun aggregate q => ?_
  refine .bind readCast_local fun cast q => ?_
  exact .get (fun _ _ => rfl) (.pure _)

theorem readBody_local (resource : Resource) (isResource : Bool) (fault : Option ParseError) :
    Local (readBody resource isResource fault) p := by
  refine .bind (accept_local trivial) fun found q => ?_
  cases found
  · exact .bind (readSuffix_local _ _ _) fun item q => .pure _
  · exact readOpening_local _ _ _

/-- The head of an item is read alike where a comma follows. -/
theorem head_local : Local head p := by
  by_cases hrest : p.rest = []
  · refine .of_fails fun hd q heof h => ?_
    have hlt := head_consumes heof h
    rw [hrest] at hlt
    cases hlt
  · refine .get (fun c _ => by rw [current_followedBy hrest]) ?_
    refine .bind (accept_local trivial) fun star q => ?_
    cases star
    case true => exact .pure _
    refine .bind (accept_local trivial) fun colon q => ?_
    refine .bind readName_local fun (label, name) q => ?_
    exact .bind readModifiers_local fun modifiers q => readBody_local _ _ _

/-! ### Items and lists -/

/-- A block that does not stop the reading is closed by a parenthesis. -/
theorem close_goes {resource : Resource} {fault : Option ParseError} {items : List SelectItem}
    {i : SelectItem} (h : close resource fault items p = (i, q)) (hq : q.halted = false) :
    p.halted = false ∧ p.peek = .rightParen ∧ q = p.advance := by
  unfold close at h
  split at h
  · next hhalted =>
    cases h
    rw [hq] at hhalted
    cases hhalted
  split at h
  · next hgoes hparen =>
    cases h
    exact ⟨Bool.eq_false_iff.2 hgoes, hparen, rfl⟩
  · cases h
    cases hq

theorem close_followedBy {resource : Resource} {fault : Option ParseError}
    {items : List SelectItem} {i : SelectItem} (heof : p.eof.kind = .eof)
    (h : close resource fault items p = (i, q)) (hq : q.halted = false) :
    q.eof.kind = .eof ∧ Passes p q ∧
      ∀ c, close resource fault items (p.followedBy c) = (i, q.followedBy c) := by
  obtain ⟨hgoes, hparen, rfl⟩ := close_goes h hq
  have hpart : p.peek.IsPart := by
    rw [hparen]
    trivial
  obtain ⟨heof', hpasses, hadvance⟩ := advance_local heof hpart
  have hrest := ne_nil_of_isPart heof hpart
  refine ⟨heof', hpasses, fun c => ?_⟩
  have hgoes' : ¬(p.followedBy c).halted = true := Bool.eq_false_iff.1 hgoes
  rw [close, if_neg (Bool.eq_false_iff.1 hgoes), if_pos hparen] at h
  rw [close, if_neg hgoes', if_pos ((peek_followedBy hrest c).trans hparen),
    current_followedBy hrest, hadvance, (Prod.mk.inj h).1]

/-- A list that stops before the end of the input, for a token of the block around it, is read alike
where a comma follows the end. -/
def ReadsInside (p : Parser) : Prop :=
  p.eof.kind = .eof → (readList p).2.halted = false → (readList p).2.rest ≠ [] →
    (readList p).2.eof.kind = .eof ∧ Passes p (readList p).2 ∧
      ∀ c, readList (p.followedBy c) = ((readList p).1, (readList p).2.followedBy c)

/-- An item that does not stop the reading is read alike where a comma follows. -/
theorem item_local (hinner : ∀ r, r.rest.length < p.rest.length → ReadsInside r)
    (heof : p.eof.kind = .eof) {i : SelectItem} (h : item readList p = (i, q))
    (hq : q.halted = false) :
    q.eof.kind = .eof ∧ Passes p q ∧
      ∀ c, item readList (p.followedBy c) = (i, q.followedBy c) := by
  match hhead : head p with
  | .error e r =>
    rw [item_error hhead] at h
    cases h
    cases hq
  | .ok (.complete i') r =>
    rw [item_complete hhead] at h
    cases h
    obtain ⟨hr, hpasses, hsame⟩ := head_local heof _ _ hhead
    exact ⟨hr, hpasses, fun c => item_complete (hsame c)⟩
  | .ok (.opening resource fault) r =>
    obtain ⟨hr, hpasses, hsame⟩ := head_local heof _ _ hhead
    have hlt := head_consumes heof hhead
    by_cases hparen : r.peek = .rightParen
    · rw [item_empty hhead hparen] at h
      obtain ⟨hq', hpasses', hclose⟩ := close_followedBy hr h hq
      refine ⟨hq', hpasses.trans hpasses', fun c => ?_⟩
      rw [item_empty (hsame c) ((peek_followedBy_eq_iff hr (by trivial) c).2 hparen)]
      exact hclose c
    · rw [item_block hhead hparen] at h
      obtain ⟨hgoes, hclosed, -⟩ := close_goes h hq
      have hleave : (readList r.enter).2.leave.eof.kind = .eof :=
        (readList_reaches r.enter).eof ▸ hr
      have hmore := rest_ne_nil hleave (by rw [hclosed]; exact TokenKind.noConfusion)
      obtain ⟨-, hpasses', hlist⟩ := hinner r.enter hlt hr hgoes hmore
      obtain ⟨hq', hpasses'', hclose⟩ := close_followedBy hleave h hq
      refine ⟨hq', (hpasses.trans hpasses').trans hpasses'', fun c => ?_⟩
      rw [item_block (hsame c) fun hp => hparen ((peek_followedBy_eq_iff hr (by trivial) c).1 hp)]
      show close resource fault (readList (r.enter.followedBy c)).1
        (readList (r.enter.followedBy c)).2.leave = _
      rw [hlist c]
      exact hclose c

theorem readList_inside (p : Parser) : ReadsInside p := by
  induction hn : p.rest.length using Nat.strongRecOn generalizing p with
  | ind n ih =>
    subst hn
    intro heof hgoes hmore
    have hinner (r : Parser) (hlt : r.rest.length < p.rest.length) : ReadsInside r :=
      ih _ hlt r rfl
    rcases h : item readList p with ⟨i, q⟩
    by_cases hend : q.halted = true ∨ q.peek ≠ .comma
    · rw [readList_last heof h hend] at hgoes hmore ⊢
      obtain ⟨hq, hpasses, hsame⟩ := item_local hinner heof h hgoes
      refine ⟨hq, hpasses, fun c => readList_last c.isEof (hsame c) (Or.inr ?_)⟩
      rw [peek_followedBy hmore]
      obtain hhalted | hcomma := hend
      · exact absurd hgoes (by rw [hhalted]; exact Bool.noConfusion)
      · exact hcomma
    · simp only [not_or, ne_eq, Decidable.not_not, Bool.not_eq_true] at hend
      obtain ⟨hq, hpasses, hsame⟩ := item_local hinner heof h hend.1
      obtain ⟨hlt, hcomma, hadvance⟩ := advance_comma hq hend.2
      have hshorter := Nat.lt_of_lt_of_le hlt hpasses.length_le
      rw [readList_comma heof h hend.1 hend.2] at hgoes hmore ⊢
      obtain ⟨hlast, hpasses', hlist⟩ := hinner q.advance hshorter hq hgoes hmore
      refine ⟨hlast, (hpasses.trans hcomma).trans hpasses', fun c => ?_⟩
      rw [readList_comma c.isEof (hsame c) hend.1 (hadvance c).1, (hadvance c).2, hlist c]

/-- A list that is read to the end of the input goes on behind a comma. -/
theorem readList_followedBy (heof : p.eof.kind = .eof) (hgoes : (readList p).2.halted = false)
    (hend : (readList p).2.rest = []) :
    Passes p (readList p).2 ∧
      ∀ c, readList (p.followedBy c) =
        ((readList p).1 ++ (readList ((readList p).2.followedBy c).advance).1,
          (readList ((readList p).2.followedBy c).advance).2) := by
  induction hn : p.rest.length using Nat.strongRecOn generalizing p with
  | ind n ih =>
    subst hn
    rcases h : item readList p with ⟨i, q⟩
    by_cases hlast : q.halted = true ∨ q.peek ≠ .comma
    · rw [readList_last heof h hlast] at hgoes hend ⊢
      obtain ⟨-, hpasses, hsame⟩ := item_local (fun r _ => readList_inside r) heof h hgoes
      exact ⟨hpasses, fun c =>
        readList_comma c.isEof (hsame c) hgoes (peek_followedBy_of_nil hend c)⟩
    · simp only [not_or, ne_eq, Decidable.not_not, Bool.not_eq_true] at hlast
      obtain ⟨hq, hpasses, hsame⟩ :=
        item_local (fun r _ => readList_inside r) heof h hlast.1
      obtain ⟨hlt, hcomma, hadvance⟩ := advance_comma hq hlast.2
      have hshorter := Nat.lt_of_lt_of_le hlt hpasses.length_le
      rw [readList_comma heof h hlast.1 hlast.2] at hgoes hend ⊢
      obtain ⟨hpasses', hlist⟩ := @ih _ hshorter q.advance hq hgoes hend rfl
      refine ⟨(hpasses.trans hcomma).trans hpasses', fun c => ?_⟩
      rw [readList_comma c.isEof (hsame c) hlast.1 (hadvance c).1, (hadvance c).2, hlist c,
        List.cons_append]

end Parser

end EmbedQuery
