import EmbedQuery.Proofs.Query.Head
import EmbedQuery.Proofs.Query.Steps

/-!
# Lists without a bound

The reader of lists is given a bound for its steps. The head of an item takes a token at least
(`head_consumes`), so the bound is never reached where it is larger than the number of tokens left,
and any two such bounds give the same (`itemsFrom_congr`). `readList` reads with one of them, and
the equations of a reader without a bound hold of it (`readList_last`, `readList_comma`).
-/

namespace EmbedQuery

namespace Parser

variable {α : Type} {p q : Parser}

/-! ### Tokens that are there -/

/-- A token other than the end of the input is one of those that are left. -/
theorem rest_ne_nil (heof : p.eof.kind = .eof) (h : p.peek ≠ .eof) : p.rest ≠ [] := by
  intro hrest
  apply h
  rw [peek, current, hrest]
  exact heof

theorem length_advance_lt (heof : p.eof.kind = .eof) (h : p.peek ≠ .eof) :
    p.advance.rest.length < p.rest.length := by
  have hpos := List.length_pos_iff.2 (rest_ne_nil heof h)
  show p.rest.tail.length < p.rest.length
  rw [List.length_tail]
  omega

theorem accept_cases {kind : TokenKind} {found : Bool} (h : accept kind p = .ok found q) :
    found = true ∧ p.peek = kind ∧ q = p.advance ∨ found = false ∧ p.peek ≠ kind ∧ q = p := by
  unfold accept at h
  split at h
  · next hkind =>
    cases h
    exact Or.inl ⟨rfl, hkind, rfl⟩
  · next hkind =>
    cases h
    exact Or.inr ⟨rfl, hkind, rfl⟩

theorem expectName_cases {expected name : String} (h : expectName expected p = .ok name q) :
    p.peek = .identifier name ∧ q = p.advance := by
  unfold expectName at h
  split at h
  · next found hfound =>
    cases h
    refine ⟨?_, rfl⟩
    cases hkind : p.peek with
    | identifier other =>
      rw [hkind] at hfound
      cases hfound
      rfl
    | _ =>
      rw [hkind] at hfound
      cases hfound
  · cases h

theorem readName_consumes (heof : p.eof.kind = .eof) {name : Option String × String}
    (h : readName p = .ok name q) : q.rest.length < p.rest.length := by
  obtain ⟨first, r, hfirst, h⟩ := bind_eq_ok_iff.1 h
  obtain ⟨hpeek, rfl⟩ := expectName_cases hfirst
  have hlt : p.advance.rest.length < p.rest.length :=
    length_advance_lt heof (by rw [hpeek]; exact TokenKind.noConfusion)
  obtain ⟨colon, r', hcolon, h⟩ := bind_eq_ok_iff.1 h
  have hle := ((accept_reads _).ok hcolon).2.rest.length_le
  cases colon with
  | false =>
    obtain ⟨-, rfl⟩ := pure_eq_ok_iff.1 h
    exact Nat.lt_of_le_of_lt hle hlt
  | true =>
    obtain ⟨second, r'', hsecond, h⟩ := bind_eq_ok_iff.1 h
    obtain ⟨-, rfl⟩ := pure_eq_ok_iff.1 h
    have hle' := ((expectName_reads _).ok hsecond).2.rest.length_le
    omega

/-- The head of an item takes a token: a star or a name. -/
theorem head_consumes (heof : p.eof.kind = .eof) {hd : Head} (h : head p = .ok hd q) :
    q.rest.length < p.rest.length := by
  obtain ⟨_, _, hget, h⟩ := bind_eq_ok_iff.1 h
  obtain ⟨rfl, rfl⟩ := get_eq_ok_iff.1 hget
  obtain ⟨star, r, hstar, h⟩ := bind_eq_ok_iff.1 h
  obtain ⟨rfl, hpeek, rfl⟩ | ⟨rfl, -, rfl⟩ := accept_cases hstar
  · obtain ⟨-, rfl⟩ := pure_eq_ok_iff.1 h
    exact length_advance_lt heof (by rw [hpeek]; exact TokenKind.noConfusion)
  · obtain ⟨colon, r, hcolon, h⟩ := bind_eq_ok_iff.1 h
    have hcolon := ((accept_reads _).ok hcolon).2
    obtain ⟨⟨label, name⟩, r', hname, h⟩ := bind_eq_ok_iff.1 h
    have hname := readName_consumes (hcolon.eof ▸ heof) hname
    obtain ⟨modifiers, r'', hmodifiers, h⟩ := bind_eq_ok_iff.1 h
    have hmodifiers := (readModifiers_reads.ok hmodifiers).2.rest.length_le
    have hbody := ((readBody_reads _ _ fault_isRecoverable).ok h).2.rest.length_le
    have hcolon := hcolon.rest.length_le
    omega

/-! ### Any bound that is large enough -/

/-- An item is read alike where lists are read alike behind its first token. -/
theorem item_congr {items items' : Parser → List SelectItem × Parser} (heof : p.eof.kind = .eof)
    (hitems : ∀ q, q.eof.kind = .eof → q.rest.length < p.rest.length → items q = items' q) :
    item items p = item items' p := by
  match h : head p with
  | .error e q => rw [item_error h, item_error h]
  | .ok (.complete i) q => rw [item_complete h, item_complete h]
  | .ok (.opening resource fault) q =>
    have hreaches := ((head_reads p).ok h).2
    have hlt : q.rest.length < p.rest.length := head_consumes heof h
    by_cases hparen : q.peek = .rightParen
    · rw [item_empty h hparen, item_empty h hparen]
    · rw [item_block h hparen, item_block h hparen, hitems q.enter (hreaches.eof ▸ heof) hlt]

theorem itemsFrom_congr {fuel fuel' : Nat} (heof : p.eof.kind = .eof) (h : p.rest.length < fuel)
    (h' : p.rest.length < fuel') : itemsFrom fuel p = itemsFrom fuel' p := by
  induction fuel generalizing fuel' p with
  | zero => cases h
  | succ fuel ih =>
    obtain ⟨fuel', rfl⟩ : ∃ n, fuel' = n + 1 := ⟨fuel' - 1, by omega⟩
    have hitem : item (itemsFrom fuel) p = item (itemsFrom fuel') p :=
      item_congr heof fun q hq hlt => ih hq (by omega) (by omega)
    have hreaches := item_reaches (itemsFrom_reaches fuel) p
    rcases hread : item (itemsFrom fuel) p with ⟨i, q⟩
    rw [hread] at hitem hreaches
    by_cases hend : q.halted = true ∨ q.peek ≠ .comma
    · rw [itemsFrom_last hread hend, itemsFrom_last hitem.symm hend]
    · simp only [not_or, ne_eq, Decidable.not_not, Bool.not_eq_true] at hend
      have hq : q.eof.kind = .eof := hreaches.eof ▸ heof
      have hle : q.rest.length ≤ p.rest.length := hreaches.rest.length_le
      have hlt := length_advance_lt hq (by rw [hend.2]; exact TokenKind.noConfusion)
      have hmore : itemsFrom fuel q.advance = itemsFrom fuel' q.advance :=
        ih hq (by omega) (by omega)
      rw [itemsFrom_comma hread hend.1 hend.2, itemsFrom_comma hitem.symm hend.1 hend.2, hmore]

/-- Reads one item or more, with commas between them. -/
def readList (p : Parser) : List SelectItem × Parser := itemsFrom (p.rest.length + 1) p

theorem readList_reaches (p : Parser) : Reaches p (readList p).2 := itemsFrom_reaches _ p

theorem itemsFrom_eq_readList {fuel : Nat} (heof : p.eof.kind = .eof) (h : p.rest.length < fuel) :
    itemsFrom fuel p = readList p :=
  itemsFrom_congr heof h (Nat.lt_succ_self _)

theorem item_eq_readList (heof : p.eof.kind = .eof) :
    item (itemsFrom p.rest.length) p = item readList p :=
  item_congr heof fun _ hq hlt => itemsFrom_eq_readList hq hlt

/-- The list ends behind an item that halts the parser or that no comma follows. -/
theorem readList_last (heof : p.eof.kind = .eof) {i : SelectItem} (h : item readList p = (i, q))
    (hq : q.halted = true ∨ q.peek ≠ .comma) : readList p = ([i], q) :=
  itemsFrom_last ((item_eq_readList heof).trans h) hq

theorem readList_comma (heof : p.eof.kind = .eof) {i : SelectItem} (h : item readList p = (i, q))
    (hhalted : q.halted = false) (hcomma : q.peek = .comma) :
    readList p = (i :: (readList q.advance).1, (readList q.advance).2) := by
  have hitem := (item_eq_readList heof).trans h
  have hreaches := item_reaches (itemsFrom_reaches p.rest.length) p
  rw [hitem] at hreaches
  have hq : q.eof.kind = .eof := hreaches.eof ▸ heof
  have hle : q.rest.length ≤ p.rest.length := hreaches.rest.length_le
  have hlt := length_advance_lt hq (by rw [hcomma]; exact TokenKind.noConfusion)
  rw [← itemsFrom_eq_readList (p := q.advance) hq (Nat.lt_of_lt_of_le hlt hle)]
  exact itemsFrom_comma hitem hhalted hcomma

theorem readList_mapSpans {f : Span → Span} (hf : Span.Joining f) (p : Parser) :
    readList (p.mapSpans f) = (readList p).map (mapSpansList f) (mapSpans f) := by
  have hlength : (p.mapSpans f).rest.length = p.rest.length := List.length_map _
  rw [readList, hlength]
  exact itemsFrom_mapSpans hf _ p

/-- Mapping spans passes through the reading of an item. -/
theorem item_readList_mapSpans {f : Span → Span} (hf : Span.Joining f) (p : Parser) :
    item readList (p.mapSpans f) = (item readList p).map (SelectItem.mapSpans f) (mapSpans f) :=
  item_mapSpans hf (readList_mapSpans hf) p

end Parser

end EmbedQuery
