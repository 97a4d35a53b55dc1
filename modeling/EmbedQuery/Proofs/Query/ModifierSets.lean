import EmbedQuery.Proofs.Query.Calls
import EmbedQuery.Proofs.Query.Lists

/-!
# Modifiers are sets

What a resource with modifiers is read as depends on which names stand behind its marks, not on how
often or in which order. The names agree if `inner` and `left` are not both among them and at most
one other name is (`Modifiers.Agree`). `Modifiers.said_ofList` is the invariant of the fold that
reads them: what it keeps stands among the names read so far, and so does what a contradiction is
about.

`item_modified` says what is read at any place where such a resource is written: an embedding if the
names agree and a contradiction otherwise, and in both cases the reading goes on behind it.
-/

namespace EmbedQuery

namespace Modifiers

variable {names names' : List String}

/-- The hints among the names of modifiers. -/
def hints (names : List String) : List String :=
  names.filter fun name => name ≠ "inner" ∧ name ≠ "left"

/-- Not both joins are among the names, and no two hints that differ. -/
def Agree (names : List String) : Prop :=
  ¬("inner" ∈ names ∧ "left" ∈ names) ∧
    ∀ first ∈ hints names, ∀ second ∈ hints names, first = second

instance (names : List String) : Decidable (Agree names) := inferInstanceAs (Decidable (_ ∧ _))

/-- The join the names ask for. -/
def joinOf (names : List String) : JoinModifier :=
  if "inner" ∈ names then .inner else if "left" ∈ names then .left else .default

theorem mem_hints_iff {name : String} :
    name ∈ hints names ↔ name ∈ names ∧ name ≠ "inner" ∧ name ≠ "left" := by
  simp [hints]

theorem agree_congr (h : ∀ name, name ∈ names ↔ name ∈ names') : Agree names ↔ Agree names' := by
  simp only [Agree, mem_hints_iff, h]

theorem joinOf_congr (h : ∀ name, name ∈ names ↔ name ∈ names') : joinOf names = joinOf names' := by
  simp only [joinOf, h]

/-- Names that agree mean the join among them and the one hint. -/
theorem Agree.mean (h : Agree names) : ModifiersMean names (joinOf names) (hints names).head? where
  inner_iff := by
    rw [joinOf]
    split <;> simp_all
    split <;> simp
  left_iff := by
    rw [joinOf]
    split
    · next hinner => simpa using fun hleft => h.1 ⟨hinner, hleft⟩
    · split <;> simp_all
  hint_iff name := by
    rw [← mem_hints_iff]
    constructor
    · intro hname
      obtain ⟨first, hfirst⟩ := Option.isSome_iff_exists.1
        (List.isSome_head?.2 (List.ne_nil_of_mem hname))
      rw [hfirst, h.2 _ (List.mem_of_head? hfirst) _ hname]
    · exact List.mem_of_head?

theorem agree_of_mean {join : JoinModifier} {hint : Option String}
    (h : ModifiersMean names join hint) : Agree names := by
  refine ⟨h.not_both, fun first hfirst second hsecond => ?_⟩
  have hf := (h.hint_iff first).1 (mem_hints_iff.1 hfirst)
  have hs := (h.hint_iff second).1 (mem_hints_iff.1 hsecond)
  exact Option.some.inj (hf.symm.trans hs)

/-- The hint of names that agree is the same for every order and repetition. -/
theorem Agree.head?_hints_congr (h : Agree names) (hsame : ∀ name, name ∈ names ↔ name ∈ names') :
    (hints names).head? = (hints names').head? := by
  have hmean := ((agree_congr hsame).1 h).mean
  have hmean' : ModifiersMean names (joinOf names') (hints names').head? := by
    refine ⟨?_, ?_, fun name => ?_⟩
    · rw [hsame, hmean.inner_iff]
    · rw [hsame, hmean.left_iff]
    · rw [hsame, hmean.hint_iff]
  exact (h.mean.unique hmean').2

/-! ### What a contradiction is about -/

/-- The error is about two modifiers among the names that contradict each other. -/
def Contradicts (names : List String) (e : ParseError) : Prop :=
  (e.cause = .conflictingJoins ∧ "inner" ∈ names ∧ "left" ∈ names) ∨
    ∃ first ∈ hints names, ∃ second ∈ hints names,
      first ≠ second ∧ e.cause = .conflictingHints first second

theorem Contradicts.not_agree {e : ParseError} (h : Contradicts names e) : ¬Agree names := by
  rintro ⟨hjoins, hhints⟩
  obtain ⟨-, hboth⟩ | ⟨first, hfirst, second, hsecond, hne, -⟩ := h
  · exact hjoins hboth
  · exact hne (hhints first hfirst second hsecond)

theorem Contradicts.append {e : ParseError} (h : Contradicts names e) (more : List String) :
    Contradicts (names ++ more) e := by
  obtain ⟨hcause, hinner, hleft⟩ | ⟨first, hfirst, second, hsecond, h⟩ := h
  · exact Or.inl ⟨hcause, List.mem_append_left _ hinner, List.mem_append_left _ hleft⟩
  · rw [hints] at hfirst hsecond
    refine Or.inr ⟨first, ?_, second, ?_, h⟩ <;> rw [hints, List.filter_append] <;>
      exact List.mem_append_left _ ‹_›

/-- What was kept of modifiers stands among their names. -/
structure Said (names : List String) (m : Modifiers) : Prop where
  join : ∀ name, m.join.name? = some name → name ∈ names
  hint : ∀ name, m.hint = some name → name ∈ hints names
  conflict : ∀ e, m.conflict = some e → Contradicts names e

/-- One modifier more is kept, or contradicts what was. -/
theorem Said.add {m : Modifiers} (h : Said names m) (name : String) (span : Span) :
    Said (names ++ [name]) (m.add (name, span)) := by
  have hhint (hint : String) (hm : m.hint = some hint) : hint ∈ hints (names ++ [name]) := by
    rw [hints, List.filter_append]
    exact List.mem_append_left _ (h.hint hint hm)
  cases hname : JoinModifier.ofName? name with
  | some join =>
    have hjoin : join.name? = some name := by
      obtain ⟨rfl, rfl⟩ | ⟨rfl, rfl⟩ := JoinModifier.ofName?_eq_some_iff.1 hname <;> rfl
    rw [add_join hname]
    refine ⟨fun other hother => ?_, hhint, fun e he => ?_⟩
    · obtain rfl := Option.some.inj (hjoin.symm.trans hother)
      exact List.mem_append_right _ List.mem_cons_self
    · obtain hold | ⟨-, hnew⟩ := Option.or_eq_some_iff.1 he
      · exact (h.conflict e hold).append _
      -- The join that was kept is the other one.
      · obtain ⟨⟨hset, hother⟩, ⟨⟩⟩ := Option.ite_none_right_eq_some.1 hnew
        have hkept := h.join
        refine Or.inl ⟨rfl, ?_⟩
        obtain ⟨rfl, rfl⟩ | ⟨rfl, rfl⟩ := JoinModifier.ofName?_eq_some_iff.1 hname <;>
          cases hm : m.join <;> simp_all [JoinModifier.name?]
  | none =>
    have hmem : name ∈ hints (names ++ [name]) :=
      mem_hints_iff.2 ⟨by simp, JoinModifier.ofName?_eq_none_iff.1 hname⟩
    rw [add_hint hname]
    refine ⟨fun other hother => List.mem_append_left _ (h.join other hother),
      fun other hother => ?_, fun e he => ?_⟩
    · obtain hold | ⟨-, hnew⟩ := Option.or_eq_some_iff.1 hother
      · exact hhint other hold
      · rwa [← Option.some.inj hnew]
    · obtain hold | ⟨-, hnew⟩ := Option.or_eq_some_iff.1 he
      · exact (h.conflict e hold).append _
      · obtain ⟨hint, hm, hnew⟩ := Option.bind_eq_some_iff.1 hnew
        obtain ⟨hne, ⟨⟩⟩ := Option.ite_none_right_eq_some.1 hnew
        exact Or.inr ⟨hint, hhint hint hm, name, hmem, hne, rfl⟩

theorem said_ofList (modifiers : List (String × Span)) :
    Said (modifiers.map Prod.fst) (ofList modifiers) := by
  have hrun (m : Modifiers) (names : List String) (h : Said names m) :
      Said (names ++ modifiers.map Prod.fst) (modifiers.foldl add m) := by
    induction modifiers generalizing m names with
    | nil => simpa using h
    | cons modifier modifiers ih =>
      obtain ⟨name, span⟩ := modifier
      simpa using ih _ _ (h.add name span)
  exact hrun {} [] ⟨by simp [JoinModifier.name?], by simp, by simp⟩

/-- Either the names agree and this is what is read, or a contradiction among them is. -/
theorem ofList_cases (modifiers : List (String × Span)) :
    (Agree (modifiers.map Prod.fst) ∧ ofList modifiers =
        ⟨joinOf (modifiers.map Prod.fst), (hints (modifiers.map Prod.fst)).head?, none⟩) ∨
      (¬Agree (modifiers.map Prod.fst) ∧
        ∃ e, (ofList modifiers).conflict = some e ∧ Contradicts (modifiers.map Prod.fst) e) := by
  cases hconflict : (ofList modifiers).conflict with
  | none =>
    have hsaid : ofList modifiers = ⟨(ofList modifiers).join, (ofList modifiers).hint, none⟩ := by
      rw [← hconflict]
    have hagree := agree_of_mean (ofList_eq_iff.1 hsaid)
    exact Or.inl ⟨hagree, ofList_eq_iff.2 hagree.mean⟩
  | some e =>
    have hcontradicts := (said_ofList modifiers).conflict e hconflict
    exact Or.inr ⟨hcontradicts.not_agree, e, rfl, hcontradicts⟩

end Modifiers

/-! ### A resource with modifiers -/

/-- A resource as it is written, its modifiers in their order. The list that follows in parentheses,
if there is one, is given as a text. -/
structure ModifiedResource where
  label : Option String := none
  name : String
  modifiers : List String
  list : Option String := none

namespace ModifiedResource

def blockTokens (list : Option String) : List TokenKind :=
  match list with
  | none => []
  | some text => .leftParen :: (kindsOf text.toList ++ [.rightParen])

def tokens (w : ModifiedResource) : List TokenKind :=
  aliasTokens w.label ++ .identifier w.name ::
    (modifiersTokens w.modifiers ++ blockTokens w.list)

/-- The embedding with this join and hint, without spans. -/
def embedding (w : ModifiedResource) (join : JoinModifier) (hint : Option String) : SelectItem :=
  match w.list with
  | none => .bare ⟨w.name, w.label, hint, join, {}⟩
  | some text => .block ⟨w.name, w.label, hint, join, {}⟩ (QueryTree.parse text).eraseSpans.items

/-- There are modifiers, and the list is read without an error and not too deep inside `depth`
blocks. -/
structure Fits (w : ModifiedResource) (depth : Nat) : Prop where
  modifiers : w.modifiers ≠ []
  list : ∀ text ∈ w.list, (QueryTree.parse text).errors = [] ∧
    depth + 1 + listNesting (QueryTree.parse text).items ≤ maxDepth

/-- The front of the resource, up to its modifiers. -/
def front (w : ModifiedResource) : Front := ⟨false, w.label, w.name, w.modifiers⟩

theorem tokens_eq (w : ModifiedResource) : w.tokens = w.front.tokens ++ blockTokens w.list := by
  simp [tokens, front, Front.tokens]

end ModifiedResource

mutual

theorem SelectItem.nesting_mapSpans (f : Span → Span) :
    ∀ i : SelectItem, (i.mapSpans f).nesting = i.nesting
  | .wildcard _ | .column _ | .count .. | .bare _ | .invalid .. => rfl
  | .block _ items => by
    rw [SelectItem.mapSpans, SelectItem.nesting, SelectItem.nesting, listNesting_mapSpansList]

/-- How deep blocks lie does not depend on where they stand. -/
theorem listNesting_mapSpansList (f : Span → Span) :
    ∀ items, listNesting (mapSpansList f items) = listNesting items
  | [] => rfl
  | i :: items => by
    rw [mapSpansList, listNesting, listNesting, i.nesting_mapSpans, listNesting_mapSpansList]

end

namespace Parser

variable {rest : List TokenKind} {d : Nat} {p : Parser} {w : ModifiedResource}

/-- Behind a head that opens a block, a derived list is read and the block is closed. -/
theorem item_block_derived {resource : Resource} (hspan : resource.span = {})
    {fault : Option ParseError} {ks : List TokenKind} {items : List SelectItem}
    (hhead : head p = .ok (.opening resource fault) (ofKinds (ks ++ .rightParen :: rest) d))
    (hlist : DerivesList ks items) (hnesting : d + 1 + listNesting items ≤ maxDepth) :
    item readList p = (itemOr fault (.block resource items), ofKinds rest d) := by
  by_cases hempty : items = []
  · obtain rfl := hempty
    obtain rfl := hlist.eq_nil_iff.2 rfl
    rw [item_empty hhead rfl]
    exact close_ofKinds hspan _ _
  · have hpeek : (ofKinds (ks ++ .rightParen :: rest) d).peek ≠ .rightParen := by
      cases ks with
      | nil => exact absurd (hlist.eq_nil_iff.1 rfl) hempty
      | cons k ks =>
        intro hk
        exact hlist.head?_ne (congrArg some hk)
    have hread : readList (ofKinds (ks ++ .rightParen :: rest) d).enter = _ :=
      itemsFrom_derived (d := d + 1) endsItem_rightParen (by simp) hlist hempty hnesting
        (by simp only [enter, ofKinds, List.length_map, List.length_append]; omega)
    rw [item_block hhead hpeek, hread]
    exact close_ofKinds hspan _ _

/-- Inside `d` blocks, a resource with modifiers is read whole, with the fault of its modifiers. -/
theorem item_modified_ofKinds (hfits : w.Fits d) (hrest : EndsItem rest) :
    item readList (ofKinds (w.tokens ++ rest) d) =
      (itemOr w.front.fault (w.embedding w.front.said.join w.front.said.hint),
        ofKinds rest d) := by
  have hresource : (!w.front.modifiers.isEmpty) = true := by
    simpa [ModifiedResource.front] using hfits.modifiers
  rw [w.tokens_eq, List.append_assoc, ModifiedResource.embedding]
  cases hlist : w.list with
  | none =>
    have hnext {k : TokenKind} (hcomma : k ≠ .comma) (hparen : k ≠ .rightParen) :
        rest.head? ≠ some k := hrest.head?_ne hcomma hparen
    refine item_complete (Eq.trans (head_front w.front (hnext (by decide) (by decide))
      (hnext (by decide) (by decide))) ?_)
    rw [hresource]
    refine (bind_of_ok (accept_miss (by decide) (hnext (by decide) (by decide)))).trans ?_
    exact bind_of_ok (readSuffix_bare rfl (hnext (by decide) (by decide))
      (hnext (by decide) (by decide)))
  | some text =>
    obtain ⟨herrors, hnesting⟩ := hfits.list text hlist
    rw [← listNesting_mapSpansList fun _ => {}] at hnesting
    obtain ⟨hderives, -⟩ := (parse_eq_iff text (QueryTree.parse text).eraseSpans.items).1
      ⟨herrors, rfl⟩
    have hkinds : ModifiedResource.blockTokens (some text) ++ rest =
        .leftParen :: (kindsOf text.toList ++ .rightParen :: rest) := by
      simp [ModifiedResource.blockTokens]
    rw [hkinds]
    have hspan : w.front.resource.span = {} := rfl
    refine item_block_derived hspan ?_ hderives hnesting
    rw [head_front w.front (by simp) (by simp), hresource]
    refine (bind_of_ok accept_hit).trans (readOpening_block ?_ (by omega))
    simp

/-- The parser stands before the resource, and behind the resource its item ends. -/
structure StandsBefore (p : Parser) (w : ModifiedResource) (rest : List TokenKind) : Prop where
  unread : p.unread = w.tokens ++ rest
  ends : EndsItem rest
  fits : w.Fits p.depth
  eof : p.eof.kind = .eof
  halted : p.halted = false

theorem StandsBefore.eraseSpans (h : p.StandsBefore w rest) :
    p.mapSpans (fun _ => {}) = ofKinds (w.tokens ++ rest) p.depth := by
  rw [mapSpans_eq_ofKinds h.eof, h.halted, ← h.unread]
  rfl

theorem item_modified_eraseSpans (h : p.StandsBefore w rest) :
    (item readList p).1.mapSpans (fun _ => {}) =
        itemOr w.front.fault (w.embedding w.front.said.join w.front.said.hint) ∧
      (item readList p).2.mapSpans (fun _ => {}) = ofKinds rest p.depth := by
  have hread := item_readList_mapSpans Span.joining_const_default p
  rw [h.eraseSpans, item_modified_ofKinds h.fits h.ends] at hread
  exact ⟨(congrArg Prod.fst hread).symm, (congrArg Prod.snd hread).symm⟩

/-- What was read is the embedding the modifiers ask for, or the contradiction in them. -/
theorem item_modified_cases (h : p.StandsBefore w rest) :
    (Modifiers.Agree w.modifiers ∧ (item readList p).1.mapSpans (fun _ => {}) =
        w.embedding (Modifiers.joinOf w.modifiers) (Modifiers.hints w.modifiers).head?) ∨
      (¬Modifiers.Agree w.modifiers ∧ ∃ e discarded, (item readList p).1 = .invalid e discarded ∧
        Modifiers.Contradicts w.modifiers e) := by
  obtain ⟨hitem, -⟩ := item_modified_eraseSpans h
  have hnames : (unplaced w.modifiers).map Prod.fst = w.modifiers := map_fst_unplaced _
  have hsaid : w.front.said = Modifiers.ofList (unplaced w.modifiers) := rfl
  have hfault : w.front.fault = w.front.said.conflict := rfl
  rw [hfault, hsaid] at hitem
  have hcases := Modifiers.ofList_cases (unplaced w.modifiers)
  rw [hnames] at hcases
  obtain ⟨hagree, hof⟩ | ⟨hagree, e, hconflict, hcontradicts⟩ := hcases
  · rw [hof] at hitem
    exact Or.inl ⟨hagree, hitem⟩
  · rw [hconflict] at hitem
    refine Or.inr ⟨hagree, ?_⟩
    cases hread : (item readList p).1 with
    | invalid e' discarded =>
      rw [hread, SelectItem.mapSpans, itemOr] at hitem
      -- Only the place of the error was forgotten.
      obtain ⟨rfl, -⟩ := SelectItem.invalid.inj hitem
      exact ⟨e', discarded, rfl, hcontradicts⟩
    | _ =>
      rw [hread, SelectItem.mapSpans, itemOr] at hitem
      cases hitem

end Parser

/-- The join and the hint of an embedding. -/
def SelectItem.choice? : SelectItem → Option (JoinModifier × Option String)
  | .bare resource | .block resource _ => some (resource.join, resource.hint)
  | .wildcard _ | .column _ | .count .. | .invalid .. => none

theorem SelectItem.choice?_mapSpans (f : Span → Span) (i : SelectItem) :
    (i.mapSpans f).choice? = i.choice? := by
  cases i <;> rfl

theorem ModifiedResource.choice?_embedding (w : ModifiedResource) (join : JoinModifier)
    (hint : Option String) : (w.embedding join hint).choice? = some (join, hint) := by
  rw [embedding]
  cases w.list <;> rfl

namespace Parser

variable {rest : List TokenKind} {p : Parser} {w : ModifiedResource}

theorem choice?_item_modified (h : p.StandsBefore w rest) :
    (Modifiers.Agree w.modifiers ∧ (item readList p).1.choice? =
        some (Modifiers.joinOf w.modifiers, (Modifiers.hints w.modifiers).head?)) ∨
      (¬Modifiers.Agree w.modifiers ∧ (item readList p).1.choice? = none) := by
  obtain ⟨hagree, hitem⟩ | ⟨hagree, e, discarded, hitem, -⟩ := item_modified_cases h
  · rw [← SelectItem.choice?_mapSpans fun _ => {}, hitem, w.choice?_embedding]
    exact Or.inl ⟨hagree, rfl⟩
  · rw [hitem]
    exact Or.inr ⟨hagree, rfl⟩

theorem StandsBefore.peek_ne_eof (h : p.StandsBefore w rest) : p.peek ≠ .eof := by
  rw [← peek_mapSpans (f := fun _ => {}), h.eraseSpans, ModifiedResource.tokens]
  cases w.label <;> exact TokenKind.noConfusion

/-- Behind the resource the reading goes on, whether its modifiers agree or not. -/
theorem StandsBefore.goes_on (h : p.StandsBefore w rest) {i : SelectItem} {q : Parser}
    (hread : item readList p = (i, q)) :
    (q.unread = rest ∧ q.depth = p.depth ∧ q.halted = false) ∧ q.peek = rest.head?.getD .eof := by
  have hq : q.mapSpans (fun _ => {}) = ofKinds rest p.depth := by
    have hbehind := (item_modified_eraseSpans h).2
    rwa [hread] at hbehind
  refine ⟨⟨?_, ?_, ?_⟩, ?_⟩
  · rw [← unread_mapSpans (fun _ => {}) q, hq]
    exact map_kind_ofKinds
  · show (q.mapSpans fun _ => {}).depth = (ofKinds rest p.depth).depth
    rw [hq]
  · show (q.mapSpans fun _ => {}).halted = (ofKinds rest p.depth).halted
    rw [hq]
  · rw [← peek_mapSpans (f := fun _ => {}), hq, peek_ofKinds]

/-- A comma behind the resource is followed by the next items; without one the list ends. -/
theorem StandsBefore.readList_eq (h : p.StandsBefore w rest) {i : SelectItem} {q : Parser}
    (hread : item readList p = (i, q)) :
    (rest.head? = some .comma →
        readList p = (i :: (readList q.advance).1, (readList q.advance).2)) ∧
      (rest.head? ≠ some .comma → readList p = ([i], q)) := by
  obtain ⟨⟨-, -, hhalted⟩, hpeek⟩ := h.goes_on hread
  constructor
  · intro hfirst
    refine readList_comma h.eof hread hhalted ?_
    rw [hpeek, hfirst]
    rfl
  · intro hfirst
    refine readList_last h.eof hread (Or.inr ?_)
    rw [hpeek]
    cases hhead : rest.head? with
    | none => exact TokenKind.noConfusion
    | some k =>
      rintro rfl
      exact hfirst hhead

/-- What a list that is read begins with, the query begins with. -/
theorem exists_items_of_readList {i : SelectItem} (hp : p.peek ≠ .eof)
    (h : ∃ more, (readList p).1 = i :: more) : ∃ more, p.parse.1.items = i :: more := by
  obtain ⟨more, hmore⟩ := h
  have htop : topItems p = readList p := if_neg hp
  rw [parse_eq, htop]
  split
  · exact ⟨more, hmore⟩
  · exact ⟨_, congrArg (· ++ _) hmore⟩

theorem StandsBefore.exists_items (h : p.StandsBefore w rest) {i : SelectItem} {q : Parser}
    (hread : item readList p = (i, q)) : ∃ more, p.parse.1.items = i :: more := by
  obtain ⟨hcomma, hlast⟩ := h.readList_eq hread
  apply exists_items_of_readList h.peek_ne_eof
  by_cases hfirst : rest.head? = some .comma
  · exact ⟨_, congrArg Prod.fst (hcomma hfirst)⟩
  · exact ⟨_, congrArg Prod.fst (hlast hfirst)⟩

/-- The order of the modifiers and how often each is written do not matter. -/
theorem choice?_item_modified_congr {p' : Parser} {w' : ModifiedResource} {rest' : List TokenKind}
    (h : p.StandsBefore w rest) (h' : p'.StandsBefore w' rest')
    (hsame : ∀ name, name ∈ w.modifiers ↔ name ∈ w'.modifiers) :
    (item readList p').1.choice? = (item readList p).1.choice? := by
  obtain ⟨hagree, hi⟩ | ⟨hagree, hi⟩ := choice?_item_modified h
  · obtain ⟨hagree', hi'⟩ | ⟨hagree', -⟩ := choice?_item_modified h'
    · rw [hi, hi', Modifiers.joinOf_congr hsame, hagree.head?_hints_congr hsame]
    · exact absurd ((Modifiers.agree_congr hsame).1 hagree) hagree'
  · obtain ⟨hagree', -⟩ | ⟨-, hi'⟩ := choice?_item_modified h'
    · exact absurd ((Modifiers.agree_congr hsame).2 hagree') hagree
    · rw [hi, hi']

/-- At any place, a resource with modifiers is read as an embedding exactly if their names agree;
then it has the join and the hint among them, and otherwise a contradiction among them takes its
place. The reading goes on behind it, at the next item if a comma follows. Resources with the same
names among their modifiers are read with the same join and hint, or none is an embedding. -/
theorem item_modified (h : p.StandsBefore w rest) :
    ∃ i q, item readList p = (i, q) ∧
      (i.choice?.isSome ↔ Modifiers.Agree w.modifiers) ∧
      (Modifiers.Agree w.modifiers → i.mapSpans (fun _ => {}) =
        w.embedding (Modifiers.joinOf w.modifiers) (Modifiers.hints w.modifiers).head?) ∧
      (¬Modifiers.Agree w.modifiers →
        ∃ e discarded, i = .invalid e discarded ∧ Modifiers.Contradicts w.modifiers e) ∧
      (q.unread = rest ∧ q.depth = p.depth ∧ q.halted = false) ∧
      (rest.head? = some .comma →
        readList p = (i :: (readList q.advance).1, (readList q.advance).2)) ∧
      (rest.head? ≠ some .comma → readList p = ([i], q)) ∧
      (∃ more, p.parse.1.items = i :: more) ∧
      ∀ p' w' rest', p'.StandsBefore w' rest' →
        (∀ name, name ∈ w.modifiers ↔ name ∈ w'.modifiers) →
          (item readList p').1.choice? = i.choice? := by
  rcases hread : item readList p with ⟨i, q⟩
  have hchoice := choice?_item_modified h
  have hcases := item_modified_cases h
  rw [hread] at hchoice hcases
  obtain ⟨hcomma, hlast⟩ := h.readList_eq hread
  refine ⟨i, q, rfl, ?_, ?_, ?_, (h.goes_on hread).1, hcomma, hlast, h.exists_items hread, ?_⟩
  · obtain ⟨hagree, hi⟩ | ⟨hagree, hi⟩ := hchoice <;> simp [hagree, hi]
  · intro hagree
    obtain ⟨-, hi⟩ | ⟨hnot, -⟩ := hcases
    · exact hi
    · exact absurd hagree hnot
  · intro hagree
    obtain ⟨hnot, -⟩ | ⟨-, hi⟩ := hcases
    · exact absurd hnot hagree
    · exact hi
  · intro p' w' rest' h' hsame
    have hcongr := choice?_item_modified_congr h h' hsame
    rwa [hread] at hcongr

/-- A join written twice around a hint, and the same two in the other order. -/
theorem item_modified_repeated :
    ∃ i q, item readList (ofQuery "a!inner!fk!inner(b),c") = (i, q) ∧
      i.choice? = some (.inner, some "fk") ∧ q.unread = [.comma, .identifier "c"] ∧
      (item readList (ofQuery "a!fk!inner(b)")).1.choice? = i.choice? := by
  have hlist : (QueryTree.parse "b").errors = [] ∧
      0 + 1 + listNesting (QueryTree.parse "b").items ≤ maxDepth := by decide +kernel
  have hfits (modifiers : List String) (hne : modifiers ≠ []) :
      ModifiedResource.Fits ⟨none, "a", modifiers, some "b"⟩ 0 := by
    refine ⟨hne, fun text htext => ?_⟩
    obtain rfl : "b" = text := Option.some.inj htext
    exact hlist
  have h : (ofQuery "a!inner!fk!inner(b),c").StandsBefore
      ⟨none, "a", ["inner", "fk", "inner"], some "b"⟩ [.comma, .identifier "c"] :=
    ⟨by decide +kernel, endsItem_comma, hfits _ (by decide), rfl, rfl⟩
  have h' : (ofQuery "a!fk!inner(b)").StandsBefore ⟨none, "a", ["fk", "inner"], some "b"⟩ [] :=
    ⟨by decide +kernel, by simp [EndsItem], hfits _ (by decide), rfl, rfl⟩
  obtain ⟨i, q, hread, -, hagree, -, ⟨hunread, -⟩, -, -, -, hsame⟩ := item_modified h
  refine ⟨i, q, hread, ?_, hunread, hsame _ _ _ h' (by simp)⟩
  rw [← SelectItem.choice?_mapSpans fun _ => {}, hagree (by decide)]
  decide

end Parser

end EmbedQuery
