import EmbedQuery.Proofs.Query.Grammar
import EmbedQuery.Proofs.Query.Reading

/-!
# What reading steps keep

A reading step moves on over tokens and leaves the rest of the parser alone (`Reaches`), and when it
fails, it fails where it stands (`StoppedBy`). It does not look at the flag of a halted parser. The
three are put together in `Reads`, which passes through `>>=`; so there is one lemma a step, and
`head_reads` for the head of an item.

Lists look at the flag, but they too only move on: `item_reaches`, `itemsFrom_reaches` and
`parse_reaches`.
-/

namespace EmbedQuery

/-- An error after which reading goes on. -/
def ParseError.IsRecoverable (e : ParseError) : Prop := e.cause.isFatal = false

namespace Modifiers

theorem conflict_add_isRecoverable {m : Modifiers}
    (h : ∀ e, m.conflict = some e → e.IsRecoverable) (modifier : String × Span) :
    ∀ e, (m.add modifier).conflict = some e → e.IsRecoverable := by
  obtain ⟨name, span⟩ := modifier
  intro e he
  cases hname : JoinModifier.ofName? name with
  | some join =>
    rw [add_join hname] at he
    obtain hold | ⟨-, hnew⟩ := Option.or_eq_some_iff.1 he
    · exact h e hold
    · obtain ⟨-, ⟨⟩⟩ := Option.ite_none_right_eq_some.1 hnew
      rfl
  | none =>
    rw [add_hint hname] at he
    obtain hold | ⟨-, hnew⟩ := Option.or_eq_some_iff.1 he
    · exact h e hold
    · obtain ⟨hint, -, hnew⟩ := Option.bind_eq_some_iff.1 hnew
      obtain ⟨-, ⟨⟩⟩ := Option.ite_none_right_eq_some.1 hnew
      rfl

/-- A contradiction among modifiers does not end the reading. -/
theorem conflict_ofList_isRecoverable (modifiers : List (String × Span)) :
    ∀ e, (ofList modifiers).conflict = some e → e.IsRecoverable := by
  have hfoldl (m : Modifiers) (h : ∀ e, m.conflict = some e → e.IsRecoverable) :
      ∀ e, (modifiers.foldl add m).conflict = some e → e.IsRecoverable := by
    induction modifiers generalizing m with
    | nil => exact h
    | cons modifier modifiers ih => exact ih _ (conflict_add_isRecoverable h modifier)
  exact hfoldl {} (by simp)

end Modifiers

namespace Parser

variable {α β : Type} {p q r : Parser}

/-! ### Moving on -/

/-- The parser `q` stands at the same query as `p` and in as many blocks, at the same place or
behind it, and it is halted if `p` is. -/
structure Reaches (p q : Parser) : Prop where
  rest : q.rest <:+ p.rest
  eof : q.eof = p.eof
  depth : q.depth = p.depth
  halted : p.halted = true → q.halted = true

namespace Reaches

theorem refl : Reaches p p := ⟨List.suffix_refl _, rfl, rfl, id⟩

theorem trans (h : Reaches p q) (h' : Reaches q r) : Reaches p r where
  rest := h'.rest.trans h.rest
  eof := h'.eof.trans h.eof
  depth := h'.depth.trans h.depth
  halted hp := h'.halted (h.halted hp)

theorem advance : Reaches p p.advance := ⟨List.tail_suffix _, rfl, rfl, id⟩

theorem halt : Reaches p p.halt := ⟨List.suffix_refl _, rfl, rfl, fun _ => rfl⟩

/-- A block is left as deep as it was entered. -/
theorem leave (h : Reaches p.enter q) : Reaches p q.leave where
  rest := h.rest
  eof := h.eof
  depth := by
    show q.depth - 1 = p.depth
    rw [h.depth]
    rfl
  halted := h.halted

end Reaches

/-! ### The flag and the place of an error -/

/-- The parser, halted or not as said. -/
def setHalted (b : Bool) (p : Parser) : Parser := { p with halted := b }

theorem setHalted_true (p : Parser) : p.setHalted true = p.halt := rfl

/-- The outcome of a reading step, with the parser halted or not as said. -/
def setResult (b : Bool) :
    EStateM.Result ParseError Parser α → EStateM.Result ParseError Parser α
  | .ok a p => .ok a (p.setHalted b)
  | .error e p => .error e (p.setHalted b)

/-- The error ends the reading where the parser stands: it is about the current token, or about the
parenthesis before it, which would open too deep a block. -/
def StoppedBy (p : Parser) (e : ParseError) : Prop :=
  (∃ expected, e = p.unexpected expected) ∨ e = ⟨.tooDeep, p.previous⟩

theorem StoppedBy.isFatal {e : ParseError} (h : p.StoppedBy e) : e.cause.isFatal = true := by
  obtain ⟨expected, rfl⟩ | rfl := h <;> rfl

/-- A reading step does the same whether the parser is halted or not. It moves on over tokens, with
a value that `Q` holds of, or fails where it stands. -/
structure Reads (Q : α → Prop) (m : Reading α) (p : Parser) : Prop where
  flag : ∀ b, m (p.setHalted b) = setResult b (m p)
  ok : ∀ {a q}, m p = .ok a q → Q a ∧ Reaches p q
  error : ∀ {e q}, m p = .error e q → q.StoppedBy e ∧ Reaches p q

namespace Reads

variable {P : α → Prop} {Q : β → Prop}

/-- A reading step keeps the flag. -/
theorem halted_eq {m : Reading α} {a : α} (h : Reads P m p) (hm : m p = .ok a q) :
    q.halted = p.halted := by
  have hflag := h.flag p.halted
  rw [show p.setHalted p.halted = p from rfl, hm] at hflag
  have hq : q = q.setHalted p.halted := (EStateM.Result.ok.inj hflag).2
  rw [hq]
  rfl

theorem pure {a : α} (h : P a) : Reads P (pure a) p where
  flag _ := rfl
  ok := by
    rintro _ _ ⟨⟩
    exact ⟨h, .refl⟩
  error := nofun

theorem throw {e : ParseError} (h : p.StoppedBy e) : Reads P (throw e) p where
  flag _ := rfl
  ok := nofun
  error := by
    rintro _ _ ⟨⟩
    exact ⟨h, .refl⟩

theorem get {k : Parser → Reading β} (hflag : ∀ b, k (p.setHalted b) = k p)
    (hk : Reads Q (k p) p) : Reads Q (get >>= k) p where
  flag b := by
    show k (p.setHalted b) (p.setHalted b) = setResult b (k p p)
    rw [hflag, hk.flag]
  ok h := hk.ok h
  error h := hk.error h

theorem bind {m : Reading α} {k : α → Reading β} (hm : Reads P m p)
    (hk : ∀ a q, P a → Reads Q (k a) q) : Reads Q (m >>= k) p where
  flag b := by
    show EStateM.bind m k (p.setHalted b) = setResult b (EStateM.bind m k p)
    unfold EStateM.bind
    rw [hm.flag]
    cases hread : m p with
    | ok a q => exact (hk a q (hm.ok hread).1).flag b
    | error e q => rfl
  ok {b r} h := by
    change EStateM.bind m k p = _ at h
    unfold EStateM.bind at h
    cases hread : m p with
    | ok a q =>
      rw [hread] at h
      obtain ⟨ha, hq⟩ := hm.ok hread
      obtain ⟨hb, hr⟩ := (hk a q ha).ok h
      exact ⟨hb, hq.trans hr⟩
    | error e q =>
      rw [hread] at h
      cases h
  error {e r} h := by
    change EStateM.bind m k p = _ at h
    unfold EStateM.bind at h
    cases hread : m p with
    | ok a q =>
      rw [hread] at h
      obtain ⟨ha, hq⟩ := hm.ok hread
      obtain ⟨he, hr⟩ := (hk a q ha).error h
      exact ⟨he, hq.trans hr⟩
    | error e q =>
      rw [hread] at h
      cases h
      exact hm.error hread

end Reads

/-! ### Reading steps -/

theorem accept_reads (kind : TokenKind) : Reads (fun _ => True) (accept kind) p where
  flag b := by
    unfold accept
    rw [show (p.setHalted b).peek = p.peek from rfl]
    split <;> rfl
  ok h := by
    unfold accept at h
    split at h <;> cases h
    · exact ⟨trivial, .advance⟩
    · exact ⟨trivial, .refl⟩
  error h := by
    unfold accept at h
    split at h <;> cases h

theorem expect_reads (kind : TokenKind) (expected : String) :
    Reads (fun _ => True) (expect kind expected) p where
  flag b := by
    unfold expect
    rw [show (p.setHalted b).peek = p.peek from rfl]
    split <;> rfl
  ok h := by
    unfold expect at h
    split at h <;> cases h
    exact ⟨trivial, .advance⟩
  error h := by
    unfold expect at h
    split at h <;> cases h
    exact ⟨Or.inl ⟨_, rfl⟩, .refl⟩

theorem expectName_reads (expected : String) :
    Reads (fun _ => True) (expectName expected) p where
  flag b := by
    unfold expectName
    rw [show (p.setHalted b).peek = p.peek from rfl]
    split <;> rfl
  ok h := by
    unfold expectName at h
    split at h <;> cases h
    exact ⟨trivial, .advance⟩
  error h := by
    unfold expectName at h
    split at h <;> cases h
    exact ⟨Or.inl ⟨_, rfl⟩, .refl⟩

theorem readName_reads : Reads (fun _ => True) readName p := by
  refine .bind (expectName_reads _) fun first q _ => ?_
  refine .bind (accept_reads _) fun colon q _ => ?_
  cases colon
  · exact .pure trivial
  · exact .bind (expectName_reads _) fun name q _ => .pure trivial

theorem readCast_reads : Reads (fun _ => True) readCast p := by
  refine .bind (accept_reads _) fun found q _ => ?_
  cases found
  · exact .pure trivial
  · exact .bind (expectName_reads _) fun target q _ => .pure trivial

theorem readAggregate_reads : Reads (fun _ => True) readAggregate p := by
  refine .bind (accept_reads _) fun found q _ => ?_
  cases found
  · exact .pure trivial
  refine .get (fun _ => rfl) ?_
  refine .bind (expectName_reads _) fun function q _ => ?_
  refine .bind (expect_reads _ _) fun _ q _ => ?_
  refine .bind (expect_reads _ _) fun _ q _ => ?_
  cases Aggregate.ofName? function with
  | some aggregate => exact .pure trivial
  | none => exact .pure trivial

/-- The tokens do not begin with a modifier. -/
def EndsModifiers (tokens : List Token) : Prop :=
  ∀ s name span more, tokens ≠ ⟨.bang, s⟩ :: ⟨.identifier name, span⟩ :: more

/-- The modifiers that are taken from `tokens` are the tokens `used`, and no other modifier follows
them. They are taken alike before anything else that does not begin with a modifier. -/
structure TakesModifiers (tokens used : List Token) : Prop where
  rest : tokens = used ++ (takeModifiers tokens).2
  kinds : used.map Token.kind = modifiersTokens ((takeModifiers tokens).1.map Prod.fst)
  last : used.getLast?.map Token.span = (takeModifiers tokens).1.getLast?.map Prod.snd
  spans : ∀ m ∈ (takeModifiers tokens).1, ∃ t ∈ used, m.2 = t.span
  ends : EndsModifiers (takeModifiers tokens).2
  same : ∀ rest, EndsModifiers rest →
    takeModifiers (used ++ rest) = ((takeModifiers tokens).1, rest)

theorem exists_takesModifiers (tokens : List Token) : ∃ used, TakesModifiers tokens used := by
  fun_induction takeModifiers tokens with
  | case1 s name span rest modifiers after h ih =>
    obtain ⟨used, hrest, hkinds, hlast, hspans, hends, hsame⟩ := ih
    rw [h] at hrest hkinds hlast hspans hends hsame
    have htake : takeModifiers (⟨.bang, s⟩ :: ⟨.identifier name, span⟩ :: rest) =
        ((name, span) :: modifiers, after) := by rw [takeModifiers, h]
    refine ⟨⟨.bang, s⟩ :: ⟨.identifier name, span⟩ :: used, ?_⟩
    constructor <;> rw [htake]
    case rest =>
      rw [hrest]
      rfl
    case kinds => simp [hkinds]
    case last =>
      rw [List.getLast?_cons_cons, List.getLast?_cons, List.getLast?_cons]
      cases hused : used.getLast? <;> cases hmodifiers : modifiers.getLast? <;> simp_all
    case spans =>
      refine List.forall_mem_cons.2 ⟨⟨⟨.identifier name, span⟩, by simp, rfl⟩, fun m hm => ?_⟩
      obtain ⟨t, ht, hspan⟩ := hspans m hm
      exact ⟨t, by simp [ht], hspan⟩
    case ends => exact hends
    case same =>
      intro rest' hrest'
      simp [takeModifiers, hsame rest' hrest']
  | case2 rest h =>
    have htake (tokens : List Token) (hends : EndsModifiers tokens) :
        takeModifiers tokens = ([], tokens) := takeModifiers.eq_2 tokens hends
    refine ⟨[], ?_⟩
    constructor <;> rw [htake rest h]
    case rest => rfl
    case kinds => rfl
    case last => rfl
    case spans => simp
    case ends => exact h
    case same => exact htake

/-- The place behind the modifiers that are there. -/
def behindModifiers (p : Parser) : Parser :=
  { p with
    previous := ((takeModifiers p.rest).1.getLast?.map Prod.snd).getD p.previous
    rest := (takeModifiers p.rest).2 }

/-- Looks whether a lone mark follows the modifiers that were taken. -/
def endModifiers (modifiers : List (String × Span)) : Reading (List (String × Span)) := do
  if ← accept .bang then throw ((← get).unexpected "join modifier or hint")
  return modifiers

/-- The modifiers are skipped at once; what is left is to look whether a lone mark follows. -/
theorem readModifiers_eq (p : Parser) :
    readModifiers p = endModifiers (takeModifiers p.rest).1 p.behindModifiers :=
  rfl

theorem behindModifiers_reaches (p : Parser) : Reaches p p.behindModifiers := by
  obtain ⟨used, hused⟩ := exists_takesModifiers p.rest
  exact ⟨⟨used, hused.rest.symm⟩, rfl, rfl, id⟩

theorem endModifiers_reads (modifiers : List (String × Span)) :
    Reads (fun _ => True) (endModifiers modifiers) p := by
  refine .bind (accept_reads _) fun found q _ => ?_
  cases found
  · exact .pure trivial
  · refine .get (fun _ => rfl) ?_
    exact .bind (.throw (P := fun _ => True) (Or.inl ⟨_, rfl⟩)) fun _ q _ => .pure trivial

theorem readModifiers_reads : Reads (fun _ => True) readModifiers p := by
  have hbehind := behindModifiers_reaches p
  have hends := endModifiers_reads (p := p.behindModifiers) (takeModifiers p.rest).1
  refine ⟨fun b => hends.flag b, fun h => ?_, fun h => ?_⟩
  · obtain ⟨ha, hq⟩ := hends.ok h
    exact ⟨ha, hbehind.trans hq⟩
  · obtain ⟨he, hq⟩ := hends.error h
    exact ⟨he, hbehind.trans hq⟩

/-! ### The head of an item -/

/-- The error that is to take the place of a block does not end the reading. -/
def Head.IsRecoverable : Head → Prop
  | complete _ => True
  | opening _ fault => ∀ e, fault = some e → e.IsRecoverable

theorem readOpening_reads (resource : Resource) (isCount : Bool) {fault : Option ParseError}
    (hfault : ∀ e, fault = some e → e.IsRecoverable) :
    Reads Head.IsRecoverable (readOpening resource isCount fault) p := by
  refine .get (fun _ => rfl) ?_
  split
  · have hadvance : Reads (fun _ => True) (modify Parser.advance : Reading PUnit) p := by
      refine ⟨fun _ => rfl, ?_, nofun⟩
      rintro _ _ ⟨⟩
      exact ⟨trivial, .advance⟩
    refine .bind hadvance fun _ q _ => ?_
    refine .bind readCast_reads fun cast q _ => ?_
    exact .get (fun _ => rfl) (.pure trivial)
  · refine .get (fun _ => rfl) ?_
    split
    · exact .bind (.throw (P := fun _ => True) (Or.inr rfl)) fun _ q _ => .pure hfault
    · exact .pure hfault

theorem readSuffix_reads (resource : Resource) (isResource : Bool) (fault : Option ParseError) :
    Reads (fun _ => True) (readSuffix resource isResource fault) p := by
  refine .bind readAggregate_reads fun aggregate q _ => ?_
  refine .bind readCast_reads fun cast q _ => ?_
  exact .get (fun _ => rfl) (.pure trivial)

theorem readBody_reads (resource : Resource) (isResource : Bool) {fault : Option ParseError}
    (hfault : ∀ e, fault = some e → e.IsRecoverable) :
    Reads Head.IsRecoverable (readBody resource isResource fault) p := by
  refine .bind (accept_reads _) fun found q _ => ?_
  cases found
  · exact .bind (readSuffix_reads _ _ _) fun item q _ => .pure trivial
  · exact readOpening_reads _ _ hfault

/-- The errors that may take the place of an item before its body is read do not end the reading. -/
theorem fault_isRecoverable {colon : Bool} {span : Span} {modifiers : List (String × Span)} :
    ∀ e, (if colon = true then some ⟨.emptyAlias, span⟩ else none).or
      (Modifiers.ofList modifiers).conflict = some e → e.IsRecoverable := by
  intro e he
  obtain halias | ⟨-, hconflict⟩ := Option.or_eq_some_iff.1 he
  · obtain ⟨-, ⟨⟩⟩ := Option.ite_none_right_eq_some.1 halias
    rfl
  · exact Modifiers.conflict_ofList_isRecoverable modifiers e hconflict

/-- The head of an item is read in the same way whether the parser is halted or not. An error in it
is raised where the parser stands, and a fault of a block is one after which reading goes on. -/
theorem head_reads (p : Parser) : Reads Head.IsRecoverable head p := by
  refine .get (fun _ => rfl) ?_
  refine .bind (accept_reads _) fun star q _ => ?_
  cases star
  case true => exact .pure trivial
  refine .bind (accept_reads _) fun colon q _ => ?_
  refine .bind readName_reads fun (label, name) q _ => ?_
  refine .bind readModifiers_reads fun modifiers q _ => ?_
  exact readBody_reads _ _ fault_isRecoverable

/-! ### Lists -/

theorem close_reaches (resource : Resource) (fault : Option ParseError) (items : List SelectItem)
    (p : Parser) : Reaches p (close resource fault items p).2 := by
  unfold close
  split
  · exact .refl
  split
  · exact .advance
  · exact .halt

theorem item_reaches {items : Parser → List SelectItem × Parser}
    (hitems : ∀ p, Reaches p (items p).2) (p : Parser) : Reaches p (item items p).2 := by
  match h : head p with
  | .error e q =>
    rw [item_error h]
    exact ((head_reads p).error h).2.trans .halt
  | .ok (.complete i) q =>
    rw [item_complete h]
    exact ((head_reads p).ok h).2
  | .ok (.opening resource fault) q =>
    have hq := ((head_reads p).ok h).2
    by_cases hparen : q.peek = .rightParen
    · rw [item_empty h hparen]
      exact hq.trans (close_reaches _ _ _ _)
    · rw [item_block h hparen]
      exact (hq.trans (hitems q.enter).leave).trans (close_reaches _ _ _ _)

theorem itemsFrom_reaches (fuel : Nat) (p : Parser) : Reaches p (itemsFrom fuel p).2 := by
  induction fuel generalizing p with
  | zero => exact .refl
  | succ fuel ih =>
    have hitem := item_reaches ih p
    rcases h : item (itemsFrom fuel) p with ⟨i, q⟩
    rw [h] at hitem
    by_cases hend : q.halted = true ∨ q.peek ≠ .comma
    · rw [itemsFrom_last h hend]
      exact hitem
    · simp only [not_or, ne_eq, Decidable.not_not, Bool.not_eq_true] at hend
      rw [itemsFrom_comma h hend.1 hend.2]
      exact (hitem.trans .advance).trans (ih q.advance)

theorem topItems_reaches (p : Parser) : Reaches p (topItems p).2 := by
  unfold topItems
  split
  · exact .refl
  · exact itemsFrom_reaches _ p

/-- A parser that has read a query stands in no more blocks than before, and if it was halted, it
still is. -/
theorem parse_reaches (p : Parser) : Reaches p p.parse.2 := by
  rw [parse_eq]
  split
  · exact topItems_reaches p
  · exact (topItems_reaches p).trans .halt

end Parser

end EmbedQuery
