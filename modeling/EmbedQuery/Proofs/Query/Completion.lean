import EmbedQuery.Proofs.Query.ErrorOrder
import EmbedQuery.Proofs.Query.Exactness
import EmbedQuery.Proofs.Query.Locality
import EmbedQuery.Proofs.Token.Spelling

/-!
# Queries that can be finished

Where reading stops at a token, the tokens before it can be finished: some query begins with them
and is read to its end.

The head of an item takes any tokens of the right form, faults or not (`head_whole`,
`head_opener`). So what was read of a query without stopping is read like that whatever follows, as
long as this ends an item (`Settles`, `SettlesList`); and where the reading stopped, some tokens
more make such an item or list of what was read (`item_completes`, `readList_completes`). In a text,
blanks keep the tokens apart (`exists_kindsOf_eq`).
-/

namespace EmbedQuery

/-! ### Texts of given tokens -/

/-- Tokens that have a spelling are those of some text: their spellings with blanks between them. -/
theorem exists_kindsOf_eq {ks : List TokenKind} (h : ∀ k ∈ ks, k.IsSpelled) :
    ∃ query : String, kindsOf query.toList = ks := by
  suffices htext : kindsOf (ks.flatMap fun k => k.spelling.toList ++ [' ']) = ks by
    exact ⟨String.ofList (ks.flatMap fun k => k.spelling.toList ++ [' ']), by
      rwa [String.toList_ofList]⟩
  induction ks with
  | nil => exact kindsOf_nil rfl
  | cons k ks ih =>
    obtain ⟨hk, hks⟩ := List.forall_mem_cons.1 h
    have hends : k.Ends (' ' :: ks.flatMap fun k => k.spelling.toList ++ [' ']) := by
      cases k with
      | identifier name =>
        rintro c ⟨⟩
        exact ⟨by decide, by decide⟩
      | colon => simp [TokenKind.Ends]
      | _ => trivial
    -- A blank is skipped.
    have hblank (cs : List Char) : kindsOf (' ' :: cs) = kindsOf cs := by
      have hdrop : (' ' :: cs).dropWhile Text.isBlank = cs.dropWhile Text.isBlank :=
        List.dropWhile_cons_of_pos (by decide)
      cases hcs : cs.dropWhile Text.isBlank with
      | nil => rw [kindsOf_nil hcs, kindsOf_nil (hdrop.trans hcs)]
      | cons c ds => rw [kindsOf_cons hcs, kindsOf_cons (hdrop.trans hcs)]
    rw [List.flatMap_cons, List.append_assoc, List.singleton_append,
      kindsOf_spelling_append hk hends, hblank, ih hks]

namespace Parser

variable {ks rest : List TokenKind} {d : Nat} {p q : Parser} {e : ParseError}

/-! ### Heads of any form -/

/-- Any function is read, be it an aggregate or not. -/
theorem readAggregate_function (function : Option String) (hrest : rest.head? ≠ some .dot) :
    ∃ aggregate, readAggregate (ofKinds (functionTokens function ++ rest) d) =
      .ok aggregate (ofKinds rest d) := by
  cases function with
  | none => exact ⟨_, bind_of_ok (accept_miss (by decide) hrest)⟩
  | some function =>
    have hread : readAggregate (ofKinds (functionTokens (some function) ++ rest) d) = _ :=
      (bind_of_ok accept_hit).trans <| (bind_of_ok (m := get) rfl).trans <|
        (bind_of_ok expectName_hit).trans <| (bind_of_ok expect_hit).trans <|
          bind_of_ok expect_hit
    rw [hread]
    cases Aggregate.ofName? function with
    | some aggregate => exact ⟨_, rfl⟩
    | none => exact ⟨_, rfl⟩

theorem readSuffix_exists (resource : Resource) (isResource : Bool) (fault : Option ParseError)
    (function cast : Option String) (hrest : EndsItem rest) :
    ∃ item, readSuffix resource isResource fault
      (ofKinds (functionTokens function ++ (castTokens cast ++ rest)) d) =
        .ok item (ofKinds rest d) := by
  have hdot : (castTokens cast ++ rest).head? ≠ some .dot := by
    cases cast with
    | none => exact hrest.head?_ne (by decide) (by decide)
    | some target => simp [castTokens]
  obtain ⟨aggregate, haggregate⟩ := readAggregate_function (d := d) function hdot
  have hcast := readCast_append (d := d) cast
    (hrest.head?_ne (k := .doubleColon) (by decide) (by decide))
  exact ⟨_, (bind_of_ok haggregate).trans (bind_of_ok hcast)⟩

/-- An item that is no block is read whole, right or wrong. -/
theorem head_whole (hks : IsWhole ks) (hrest : EndsItem rest) :
    ∃ item, head (ofKinds (ks ++ rest) d) = .ok (.complete item) (ofKinds rest d) := by
  have hend {k : TokenKind} (hcomma : k ≠ .comma) (hparen : k ≠ .rightParen) :
      rest.head? ≠ some k := hrest.head?_ne hcomma hparen
  cases hks with
  | star =>
    refine ⟨.wildcard {}, ?_⟩
    refine (bind_of_ok (m := get) rfl).trans ?_
    exact bind_of_ok accept_hit
  | suffix f function cast =>
    have hnext {k : TokenKind} (hk : k = .colon ∨ k = .bang ∨ k = .leftParen) :
        (functionTokens function ++ (castTokens cast ++ rest)).head? ≠ some k := by
      cases function <;> cases cast <;>
        obtain rfl | rfl | rfl := hk <;> simp [functionTokens, castTokens, hend]
    obtain ⟨item, hitem⟩ := readSuffix_exists (d := d) f.resource (!f.modifiers.isEmpty) f.fault
      function cast hrest
    refine ⟨item, ?_⟩
    rw [List.append_assoc, List.append_assoc, head_front f (hnext (.inl rfl))
      (hnext (.inr (.inl rfl)))]
    refine (bind_of_ok (accept_miss (by decide) (hnext (.inr (.inr rfl))))).trans ?_
    exact bind_of_ok hitem
  | @count f hcount cast =>
    refine ⟨itemOr f.fault (.count f.resource.label cast {}), ?_⟩
    rw [List.append_assoc, List.cons_append, List.cons_append, head_front f (by simp) (by simp)]
    refine (bind_of_ok accept_hit).trans ?_
    have hisCount : (f.resource.name = "count" && !!f.modifiers.isEmpty) = true := by
      simp [Front.resource, hcount.1, hcount.2]
    rw [hisCount]
    exact readOpening_count rfl (hend (by decide) (by decide))

/-- A block is read up to its list, right or wrong, if it is not too deep. -/
theorem head_opener (f : Front) (hcount : f.IsCount → rest.head? ≠ some .rightParen)
    (hdepth : d < maxDepth) :
    head (ofKinds (f.tokens ++ .leftParen :: rest) d) =
      .ok (.opening f.resource f.fault) (ofKinds rest d) := by
  rw [head_front f (by simp) (by simp)]
  refine (bind_of_ok accept_hit).trans (readOpening_block ?_ hdepth)
  rintro ⟨hisCount, hparen⟩
  obtain ⟨hname, hmodifiers⟩ := Bool.and_eq_true_iff.1 hisCount
  exact hcount ⟨of_decide_eq_true hname, by simpa using hmodifiers⟩ hparen

/-! ### What is read whatever follows -/

/-- As an item inside `d` blocks, the tokens are read, right or wrong, and no more than them. -/
def Settles (d : Nat) (ks : List TokenKind) : Prop :=
  ∀ rest, EndsItem rest → (item readList (ofKinds (ks ++ rest) d)).2 = ofKinds rest d

/-- What ends a list: the end of the input or a closing parenthesis. -/
def EndsList (rest : List TokenKind) : Prop := ∀ k, rest.head? = some k → k = .rightParen

theorem EndsList.endsItem (h : EndsList rest) : EndsItem rest := fun k hk => Or.inr (h k hk)

/-- As a list inside `d` blocks, the tokens are read, right or wrong, and no more than them. -/
def SettlesList (d : Nat) (ks : List TokenKind) : Prop :=
  ∀ rest, EndsList rest → (readList (ofKinds (ks ++ rest) d)).2 = ofKinds rest d

theorem Settles.whole (h : IsWhole ks) : Settles d ks := by
  intro rest hrest
  obtain ⟨item, hhead⟩ := head_whole (d := d) h hrest
  rw [item_complete hhead]

theorem Settles.list (h : Settles d ks) : SettlesList d ks := by
  intro rest hrest
  rcases hitem : item readList (ofKinds (ks ++ rest) d) with ⟨i, q⟩
  have hq := h rest hrest.endsItem
  rw [hitem] at hq
  obtain rfl : q = ofKinds rest d := hq
  rw [readList_last rfl hitem (Or.inr ?_)]
  rw [peek_ofKinds]
  intro hcomma
  cases rest with
  | nil => cases hcomma
  | cons k rest => cases (hrest k rfl).symm.trans hcomma

theorem Settles.cons {more : List TokenKind} (h : Settles d ks) (hmore : SettlesList d more) :
    SettlesList d (ks ++ .comma :: more) := by
  intro rest hrest
  rw [List.append_assoc, List.cons_append]
  rcases hitem : item readList (ofKinds (ks ++ .comma :: (more ++ rest)) d) with ⟨i, q⟩
  have hq := h (.comma :: (more ++ rest)) endsItem_comma
  rw [hitem] at hq
  obtain rfl : q = ofKinds (.comma :: (more ++ rest)) d := hq
  rw [readList_comma rfl hitem rfl rfl, advance_ofKinds]
  exact hmore rest hrest

/-- The tokens of an item begin with a star, a colon or a name. -/
theorem head?_of_taken {used : List Token} {hd : Head} (h : hd.TakenFrom used q) :
    (used.map Token.kind).head? ≠ some .rightParen := by
  have hfront (f : Front) (more : List TokenKind) :
      (f.tokens ++ more).head? ≠ some .rightParen := by
    obtain ⟨colon, label, name, modifiers⟩ := f
    cases colon <;> cases label <;> simp [Front.tokens, aliasTokens]
  cases h with
  | complete htokens =>
    generalize used.map Token.kind = ks at htokens
    cases htokens with
    | star => simp
    | suffix f function cast => exact hfront f _
    | count hcount cast => exact hfront _ _
  | opening f htokens =>
    rw [htokens]
    exact hfront f _

/-- What an item begins with is no closing parenthesis. -/
theorem peek_of_head {hd : Head} (heof : p.eof.kind = .eof) (h : head p = .ok hd q) :
    p.peek ≠ .rightParen := by
  obtain ⟨used, hmoves, htaken⟩ := head_moves heof h
  intro hpeek
  have hlt := head_consumes heof h
  have hne : used ≠ [] := by
    rintro rfl
    rw [hmoves.rest, List.nil_append] at hlt
    exact Nat.lt_irrefl _ hlt
  refine head?_of_taken htaken ?_
  rw [List.head?_map, hmoves.head?_used hne]
  exact congrArg some hpeek

/-- A list that is read begins with no closing parenthesis. -/
theorem SettlesList.peek_ne (h : SettlesList d ks) (hrest : EndsList rest) :
    (ofKinds (ks ++ rest) d).peek ≠ .rightParen := by
  have hgoes := congrArg Parser.halted (h rest hrest)
  match hhead : head (ofKinds (ks ++ rest) d) with
  | .ok hd q => exact peek_of_head rfl hhead
  | .error e q =>
    rw [readList_last rfl (item_error hhead) (Or.inl rfl)] at hgoes
    cases hgoes

/-- A block is read when its list is. -/
theorem SettlesList.block (h : SettlesList (d + 1) ks) (f : Front) (hdepth : d < maxDepth) :
    Settles d (f.tokens ++ .leftParen :: (ks ++ [.rightParen])) := by
  intro rest hrest
  have hends : EndsList (.rightParen :: rest) := fun k hk => (Option.some.inj hk).symm
  have hpeek := h.peek_ne hends
  have hkinds : f.tokens ++ .leftParen :: (ks ++ [.rightParen]) ++ rest =
      f.tokens ++ .leftParen :: (ks ++ .rightParen :: rest) := by simp
  have hhead : head (ofKinds (f.tokens ++ .leftParen :: (ks ++ .rightParen :: rest)) d) = _ :=
    head_opener f (fun _ hparen => hpeek (by rw [peek_ofKinds, hparen]; rfl)) hdepth
  have hlist : (readList (ofKinds (ks ++ .rightParen :: rest) d).enter).2 =
      ofKinds (.rightParen :: rest) (d + 1) := h _ hends
  rw [hkinds, item_block hhead hpeek, hlist]
  rfl

/-- An empty block is read, if it is not the number of rows. -/
theorem Settles.empty (f : Front) (hcount : ¬f.IsCount) (hdepth : d < maxDepth) :
    Settles d (f.tokens ++ [.leftParen, .rightParen]) := by
  intro rest hrest
  have hkinds : f.tokens ++ [.leftParen, .rightParen] ++ rest =
      f.tokens ++ .leftParen :: .rightParen :: rest := by simp
  have hhead : head (ofKinds (f.tokens ++ .leftParen :: .rightParen :: rest) d) = _ :=
    head_opener f (fun hf => absurd hf hcount) hdepth
  rw [hkinds, item_empty hhead rfl]
  rfl

/-! ### What was read without stopping -/

/-- An item that does not stop the reading is read like that whatever follows. -/
theorem item_settles
    (hlist : ∀ r, r.rest.length < p.rest.length → r.eof.kind = .eof → r.halted = false →
      (readList r).2.halted = false →
      ∃ used, Moves r used (readList r).2 ∧ SettlesList r.depth (used.map Token.kind))
    (heof : p.eof.kind = .eof) (hp : p.halted = false)
    (hgoes : (item readList p).2.halted = false) :
    ∃ used, Moves p used (item readList p).2 ∧ Settles p.depth (used.map Token.kind) := by
  match hhead : head p with
  | .error e q =>
    rw [item_error hhead] at hgoes
    cases hgoes
  | .ok (.complete i) q =>
    rw [item_complete hhead]
    obtain ⟨used, hmoves, htaken⟩ := head_moves heof hhead
    cases htaken with
    | complete htokens => exact ⟨used, hmoves, .whole htokens⟩
  | .ok (.opening resource fault) q =>
    obtain ⟨used, hmoves, htaken⟩ := head_moves heof hhead
    have hq : q.halted = false := ((head_reads p).halted_eq hhead).trans hp
    cases htaken with
    | opening f htokens hcount hdepth =>
      rw [hmoves.depth] at hdepth
      by_cases hparen : q.peek = .rightParen
      · rw [item_empty hhead hparen] at hgoes ⊢
        rcases hread : close resource fault [] q with ⟨i, s⟩
        rw [hread] at hgoes
        obtain ⟨-, -, rfl⟩ := close_goes hread hgoes
        refine ⟨_, hmoves.advance (hparen ▸ TokenKind.noConfusion), ?_⟩
        have hkind : q.current.kind = .rightParen := hparen
        have hempty := Settles.empty (d := p.depth) f (fun hf => hcount hf hparen) hdepth
        simpa [htokens, hkind] using hempty
      · rw [item_block hhead hparen] at hgoes ⊢
        rcases hread : close resource fault (readList q.enter).1 (readList q.enter).2.leave with
          ⟨i, s⟩
        rw [hread] at hgoes
        obtain ⟨hlistGoes, hclosed, rfl⟩ := close_goes hread hgoes
        have hlt : q.rest.length < p.rest.length := head_consumes heof hhead
        obtain ⟨inner, hinner, hsettles⟩ := hlist q.enter hlt hmoves.isEof hq hlistGoes
        refine ⟨_, (hmoves.trans hinner.leave).advance (hclosed ▸ TokenKind.noConfusion), ?_⟩
        have hkind : (readList q.enter).2.leave.current.kind = .rightParen := hclosed
        have henter : q.enter.depth = p.depth + 1 := congrArg (· + 1) hmoves.depth
        rw [henter] at hsettles
        have hblock := hsettles.block f hdepth
        simpa [htokens, hkind] using hblock

/-- A list that does not stop the reading is read like that whatever follows. -/
theorem readList_settles (heof : p.eof.kind = .eof) (hp : p.halted = false)
    (hgoes : (readList p).2.halted = false) :
    ∃ used, Moves p used (readList p).2 ∧ SettlesList p.depth (used.map Token.kind) := by
  induction hn : p.rest.length using Nat.strongRecOn generalizing p with
  | ind n ih =>
    subst hn
    have hitem := item_settles (fun r hlt hr hgoes h => ih _ hlt hr hgoes h rfl) heof hp
    rcases hread : item readList p with ⟨i, q⟩
    rw [hread] at hitem
    by_cases hend : q.halted = true ∨ q.peek ≠ .comma
    · rw [readList_last heof hread hend] at hgoes ⊢
      obtain ⟨used, hmoves, hsettles⟩ := hitem hgoes
      exact ⟨used, hmoves, hsettles.list⟩
    · simp only [not_or, ne_eq, Decidable.not_not, Bool.not_eq_true] at hend
      obtain ⟨hq, hcomma⟩ := hend
      obtain ⟨used, hmoves, hsettles⟩ := hitem hq
      rw [readList_comma heof hread hq hcomma] at hgoes ⊢
      have hmoves' := hmoves.advance (hcomma ▸ TokenKind.noConfusion)
      have hlt := hmoves.length_advance_lt (hcomma ▸ TokenKind.noConfusion)
      obtain ⟨more, hmore, hlist⟩ := ih _ hlt hmoves'.isEof hq hgoes rfl
      rw [hmoves'.depth] at hlist
      refine ⟨_, hmoves'.trans hmore, ?_⟩
      have hkind : q.current.kind = .comma := hcomma
      simpa [hkind] using hsettles.cons hlist

/-! ### What was read before a stop -/

/-- Reading from `p` on stopped at a token that does not fit, and with some more tokens that a text
can have in its place, `S` holds of what was read. -/
def StopsShort (S : List TokenKind → Prop) (p q : Parser) (e : ParseError) : Prop :=
  q.Misses e ∧ ∃ used fill, p.rest = used ++ q.rest ∧ (∀ k ∈ fill, k.IsRead) ∧
    S (used.map Token.kind ++ fill)

/-- What is read around the place where reading stopped. -/
theorem StopsShort.around {S S' : List TokenKind → Prop} {r : Parser} {before : List Token}
    {after : List TokenKind} (h : StopsShort S r q e) (hrest : p.rest = before ++ r.rest)
    (hafter : ∀ k ∈ after, k.IsRead)
    (hS : ∀ ks, S ks → S' (before.map Token.kind ++ (ks ++ after))) : StopsShort S' p q e := by
  obtain ⟨hmisses, used, fill, hused, hfill, hsettles⟩ := h
  refine ⟨hmisses, before ++ used, fill ++ after, ?_, List.forall_mem_append.2 ⟨hfill, hafter⟩, ?_⟩
  · rw [hrest, hused, List.append_assoc]
  · simpa using hS _ hsettles

theorem StopsShort.imp {S S' : List TokenKind → Prop} (h : StopsShort S p q e)
    (hS : ∀ ks, S ks → S' ks) : StopsShort S' p q e := by
  obtain ⟨hmisses, used, fill, hused, hfill, hsettles⟩ := h
  exact ⟨hmisses, used, fill, hused, hfill, hS _ hsettles⟩

/-- An error about a token ends the reading. -/
theorem not_isRecoverable_of_found (h : e.found ≠ none) : ¬e.IsRecoverable := by
  obtain ⟨cause, span⟩ := e
  intro hrecoverable
  cases cause with
  | unexpected expected found => cases hrecoverable
  | _ => exact h rfl

/-- A block stops the reading where its list does, or at its end. -/
theorem close_stops {resource : Resource} {fault : Option ParseError} {items : List SelectItem}
    {i : SelectItem} (h : close resource fault items p = (i, q)) (hq : q.halted = true) :
    (p.halted = true ∧ q = p ∧ ∃ resource, i = itemOr fault (.block resource items)) ∨
      (p.halted = false ∧ q = p.halt ∧ i = .invalid (p.unexpected "',' or ')'") items) := by
  unfold close at h
  split at h
  · next hhalted =>
    cases h
    exact Or.inl ⟨hhalted, rfl, _, rfl⟩
  split at h
  · next hgoes _ =>
    cases h
    exact absurd hq hgoes
  · next hgoes _ =>
    cases h
    exact Or.inr ⟨Bool.eq_false_iff.2 hgoes, rfl, rfl⟩

/-- An item that stops the reading can be finished. -/
theorem item_completes
    (hlist : ∀ r, r.rest.length < p.rest.length → r.eof.kind = .eof → r.halted = false →
      (readList r).2.halted = true → e ∈ listErrors (readList r).1 →
      StopsShort (SettlesList r.depth) r (readList r).2 e)
    (heof : p.eof.kind = .eof) (hp : p.halted = false)
    (hstops : (item readList p).2.halted = true) (he : e ∈ (item readList p).1.errors)
    (hfound : e.found ≠ none) : StopsShort (Settles p.depth) p (item readList p).2 e := by
  match hhead : head p with
  | .error e' q =>
    rw [item_error hhead] at he ⊢
    obtain rfl := List.mem_singleton.1 he
    obtain ⟨used, hmoves, ⟨hmisses, fill, hwhole, hfill⟩ | ⟨rfl, -⟩⟩ := head_error heof hhead
    · exact ⟨hmisses, used, fill, hmoves.rest, hfill, .whole hwhole⟩
    · exact absurd rfl hfound
  | .ok (.complete i) q =>
    rw [item_complete hhead] at hstops
    have hq : q.halted = p.halted := (head_reads p).halted_eq hhead
    rw [hq, hp] at hstops
    cases hstops
  | .ok (.opening resource fault) q =>
    obtain ⟨used, hmoves, htaken⟩ := head_moves heof hhead
    have hq : q.halted = false := ((head_reads p).halted_eq hhead).trans hp
    have hlt : q.rest.length < p.rest.length := head_consumes heof hhead
    cases htaken with
    | opening f htokens hcount hdepth hfault =>
      have henter : q.enter.depth = p.depth + 1 := congrArg (· + 1) hmoves.depth
      rw [hmoves.depth] at hdepth
      -- With the closing parenthesis, a list that is read makes a block that is read.
      have hblock (ks : List TokenKind) (hks : SettlesList q.enter.depth ks) :
          Settles p.depth (used.map Token.kind ++ (ks ++ [.rightParen])) := by
        rw [henter] at hks
        simpa [htokens] using hks.block f hdepth
      by_cases hparen : q.peek = .rightParen
      · rw [item_empty hhead hparen] at hstops
        rw [close, if_neg (Bool.eq_false_iff.1 hq), if_pos hparen] at hstops
        cases hq.symm.trans hstops
      · rw [item_block hhead hparen] at hstops he ⊢
        rcases hread : close resource fault (readList q.enter).1 (readList q.enter).2.leave with
          ⟨i, s⟩
        rw [hread] at hstops he
        obtain ⟨hhalted, rfl, resource', rfl⟩ | ⟨hgoes, rfl, rfl⟩ := close_stops hread hstops
        · cases fault with
          | some error =>
            -- The fault of the block hides the error.
            obtain rfl := List.mem_singleton.1 he
            exact absurd (hfault e rfl).1 (not_isRecoverable_of_found hfound)
          | none =>
            have hinner := hlist q.enter hlt hmoves.isEof hq hhalted he
            exact hinner.around hmoves.rest (by simp [TokenKind.IsRead]) hblock
        · obtain rfl := List.mem_singleton.1 he
          obtain ⟨inner, hinner, hsettles⟩ :=
            readList_settles (p := q.enter) hmoves.isEof hq hgoes
          have hshort : StopsShort (SettlesList q.enter.depth) q.enter
              (readList q.enter).2.leave.halt
              ((readList q.enter).2.leave.unexpected "',' or ')'") :=
            ⟨⟨_, rfl⟩, inner, [], hinner.rest, by simp, by rwa [List.append_nil]⟩
          exact hshort.around hmoves.rest (by simp [TokenKind.IsRead]) hblock

/-- A list that stops the reading can be finished. -/
theorem readList_completes (heof : p.eof.kind = .eof) (hp : p.halted = false)
    (hstops : (readList p).2.halted = true) (he : e ∈ listErrors (readList p).1)
    (hfound : e.found ≠ none) : StopsShort (SettlesList p.depth) p (readList p).2 e := by
  induction hn : p.rest.length using Nat.strongRecOn generalizing p with
  | ind n ih =>
    subst hn
    have hcompletes := item_completes (e := e)
      (fun r hlt hr hgoes hstops he => ih _ hlt hr hgoes hstops he rfl) heof hp
    have hsettles := item_settles (fun r _ hr hgoes h => readList_settles hr hgoes h) heof hp
    have hreports : Reports p (item readList p).2 (item readList p).1.errors :=
      item_reports (fun r hr hgoes =>
        ⟨itemsFrom_reports hr hgoes, (readList_reaches r).eof ▸ hr⟩) heof hp
    rcases hread : item readList p with ⟨i, q⟩
    rw [hread] at hcompletes hsettles hreports
    by_cases hend : q.halted = true ∨ q.peek ≠ .comma
    · rw [readList_last heof hread hend] at hstops he ⊢
      rw [listErrors, listErrors, List.append_nil] at he
      have hitem := hcompletes hstops he hfound
      exact hitem.imp fun ks hks => hks.list
    · simp only [not_or, ne_eq, Decidable.not_not, Bool.not_eq_true] at hend
      obtain ⟨hgoes, hcomma⟩ := hend
      obtain ⟨used, hmoves, hsettles⟩ := hsettles hgoes
      rw [readList_comma heof hread hgoes hcomma] at hstops he ⊢
      -- An item that does not stop the reading has no error about a token.
      have hmore : e ∈ listErrors (readList q.advance).1 :=
        (List.mem_append.1 he).resolve_left fun hi =>
          not_isRecoverable_of_found hfound (hreports.goes hgoes e hi)
      have hmoves' := hmoves.advance (hcomma ▸ TokenKind.noConfusion)
      have hlt := hmoves.length_advance_lt (hcomma ▸ TokenKind.noConfusion)
      have hlist := ih _ hlt hmoves'.isEof hgoes hstops hmore rfl
      rw [hmoves'.depth] at hlist
      refine hlist.around hmoves'.rest (List.forall_mem_nil _) fun ks hks => ?_
      have hkind : q.current.kind = .comma := hcomma
      simpa [hkind] using hsettles.cons hks

/-! ### Whole queries -/

/-- Tokens that are read as a list are a query that is read to its end. -/
theorem SettlesList.halted_parse (h : SettlesList 0 ks) :
    (ofKinds ks 0).parse.2.halted = false := by
  have htop : (topItems (ofKinds ks 0)).2.halted = false ∧
      (topItems (ofKinds ks 0)).2.peek = .eof := by
    unfold topItems
    split
    · next hpeek => exact ⟨rfl, hpeek⟩
    · have hends : EndsList [] := by
        rintro k ⟨⟩
      have hlist := h [] hends
      rw [List.append_nil] at hlist
      have hread : (itemsFrom ((ofKinds ks 0).rest.length + 1) (ofKinds ks 0)).2 =
          ofKinds [] 0 := hlist
      rw [hread]
      exact ⟨rfl, rfl⟩
  rw [parse_eq, htop.2, if_pos (by simp)]
  exact htop.1

/-- Tokens that are read are no complaints. -/
theorem SettlesList.ne_error (h : SettlesList d ks) : ∀ k ∈ ks, ∀ message, k ≠ .error message := by
  have hends : EndsList [] := by
    rintro k ⟨⟩
  have hlist := h [] hends
  rw [List.append_nil] at hlist
  obtain ⟨⟨used, hused, hkinds⟩, -⟩ := readList_followedBy (p := ofKinds ks d) rfl
    (by rw [hlist]; rfl) (by rw [hlist]; rfl)
  rw [hlist] at hused
  have hsame : used.map Token.kind = ks := by
    have hmap : (ofKinds ks d).rest.map Token.kind = ks := map_kind_ofKinds
    rw [← hmap, hused]
    simp [ofKinds]
  intro k hk
  rw [← hsame] at hk
  obtain ⟨t, ht, rfl⟩ := List.mem_map.1 hk
  exact hkinds t ht

/-- Whether the reading is stopped depends on the kinds of the tokens alone. -/
theorem halted_parse_eq (heof : p.eof.kind = .eof) (hdepth : p.depth = 0) (hp : p.halted = false) :
    p.parse.2.halted = (ofKinds (p.rest.map Token.kind) 0).parse.2.halted := by
  have hbare := mapSpans_eq_ofKinds heof
  rw [hdepth, hp] at hbare
  have hparse := parse_mapSpans Span.joining_const_default p
  rw [hbare] at hparse
  exact congrArg (fun read => read.2.halted) hparse.symm

theorem halted_parse_ofQuery (query : String) :
    (ofQuery query).parse.2.halted = (ofKinds (kindsOf query.toList) 0).parse.2.halted := by
  have hkinds : (ofQuery query).rest.map Token.kind = kindsOf query.toList := map_kind_tokens _
  rw [halted_parse_eq rfl rfl rfl, hkinds]

/-- A query with an error about a token stops there, and can be finished. -/
theorem parse_stopsShort (heof : p.eof.kind = .eof) (hp : p.halted = false)
    (he : e ∈ p.parse.1.errors) (hfound : e.found ≠ none) :
    StopsShort (SettlesList p.depth) p p.parse.2 e := by
  -- An empty query has no error.
  have hpeek : p.peek ≠ .eof := by
    intro hpeek
    have htop : topItems p = ([], p) := if_pos hpeek
    rw [parse_eq, htop, if_pos (by simp [hpeek])] at he
    cases he
  have htop : topItems p = readList p := if_neg hpeek
  have hreports : Reports p (readList p).2 (listErrors (readList p).1) := itemsFrom_reports heof hp
  rw [parse_eq, htop] at he ⊢
  cases hgoes : (readList p).2.halted with
  | true =>
    rw [if_pos (by simp [hgoes])] at he ⊢
    exact readList_completes heof hp hgoes he hfound
  | false =>
    -- The list has no error about a token, so the error is about the token behind it.
    have hlist : e ∉ listErrors (readList p).1 := fun he =>
      not_isRecoverable_of_found hfound (hreports.goes hgoes e he)
    by_cases hend : (readList p).2.peek = .eof
    · rw [if_pos (by simp [hend])] at he
      exact absurd he hlist
    · rw [if_neg (by simp [hgoes, hend])] at he ⊢
      rw [QueryTree.errors, listErrors_append] at he
      obtain rfl := List.mem_singleton.1 ((List.mem_append.1 he).resolve_left hlist)
      obtain ⟨used, hmoves, hsettles⟩ := readList_settles heof hp hgoes
      exact ⟨⟨_, rfl⟩, used, [], hmoves.rest, by simp, by rwa [List.append_nil]⟩

/-- Where a query stops the reading at a token, what was read of it is the beginning of a query that
is read to its end. -/
theorem parse_completes (query : String) (he : e ∈ (QueryTree.parse query).errors)
    (hfound : e.found ≠ none) :
    (ofQuery query).parse.2.Misses e ∧ ∃ used,
      (ofQuery query).rest = used ++ (ofQuery query).parse.2.rest ∧
      ∃ finished, used.map Token.kind <+: kindsOf finished.toList ∧
        (ofQuery finished).parse.2.halted = false := by
  obtain ⟨hmisses, used, fill, hused, hfill, hsettles⟩ := parse_stopsShort rfl rfl he hfound
  have hkinds : (ofQuery query).rest.map Token.kind = kindsOf query.toList := map_kind_tokens _
  rw [hused, List.map_append] at hkinds
  have hspelled : ∀ k ∈ used.map Token.kind ++ fill, k.IsSpelled := by
    refine fun k hk => ⟨?_, hsettles.ne_error k hk⟩
    rcases List.mem_append.1 hk with hk | hk
    · exact isRead_of_mem_kindsOf k (hkinds ▸ List.mem_append_left _ hk)
    · exact hfill k hk
  obtain ⟨finished, hfinished⟩ := exists_kindsOf_eq hspelled
  refine ⟨hmisses, used, hused, finished, ⟨fill, hfinished.symm⟩, ?_⟩
  rw [halted_parse_ofQuery, hfinished]
  exact hsettles.halted_parse

end Parser

end EmbedQuery
