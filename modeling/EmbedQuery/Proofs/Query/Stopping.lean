import EmbedQuery.Proofs.Query.Steps

/-!
# Where the reading of a query stopped

A parser that is halted while it reads stands at the token it could not read, and its tree ends with
the error that says so (`item_stopped`, `itemsFrom_stopped`, `parse_stopped`). Whether the errors of
the tree tell it is another matter. A block with a fault of its own, an alias that is missing or
modifiers that contradict each other, gives way to that fault, and then nothing is told of the list
inside it, not even that the reading stopped there.

`StopsAt e hidden item` says that the reading stopped with `e` in `item`, and whether such a block
hides it. The last error of a query is the one that stopped the reading exactly when none does.
-/

namespace EmbedQuery

/-- The reading stopped with the error `e` in the item. It is `hidden` when `e` lies in a block that
gave way to a fault. -/
inductive StopsAt (e : ParseError) : Bool → SelectItem → Prop
  | here (discarded : List SelectItem) : StopsAt e false (.invalid e discarded)
  | inside {hidden : Bool} {item : SelectItem} {items : List SelectItem} (resource : Resource)
      (hlast : items.getLast? = some item) (hstops : StopsAt e hidden item) :
      StopsAt e hidden (.block resource items)
  | behind {hidden : Bool} {item : SelectItem} {items : List SelectItem} {fault : ParseError}
      (hfault : fault.IsRecoverable) (resource : Resource) (hlast : items.getLast? = some item)
      (hstops : StopsAt e hidden item) : StopsAt e true (.invalid fault [.block resource items])

/-- The last error of a list is that of its last item, if that has one. -/
theorem getLast?_listErrors {items : List SelectItem} {item : SelectItem} {e : ParseError}
    (hlast : items.getLast? = some item) (he : item.errors.getLast? = some e) :
    (listErrors items).getLast? = some e := by
  obtain ⟨before, rfl⟩ := List.getLast?_eq_some_iff.1 hlast
  rw [listErrors_append, listErrors, listErrors, List.append_nil, List.getLast?_append, he]
  rfl

/-- The last error of an item in which the reading stopped: the one it stopped with or, where that
is hidden, one after which reading goes on. -/
theorem StopsAt.getLast?_errors {e : ParseError} {hidden : Bool} {item : SelectItem}
    (h : StopsAt e hidden item) :
    ∃ last, item.errors.getLast? = some last ∧ (hidden = false → last = e) ∧
      (hidden = true → last.IsRecoverable) := by
  induction h with
  | here discarded => exact ⟨e, rfl, fun _ => rfl, nofun⟩
  | inside resource hlast _ ih =>
    obtain ⟨last, herrors, hlast'⟩ := ih
    exact ⟨last, getLast?_listErrors hlast herrors, hlast'⟩
  | behind hfault => exact ⟨_, rfl, nofun, fun _ => hfault⟩

namespace Parser

variable {p q : Parser}

/-- The reading stopped in the item, and the parser stands where it did. -/
def StoppedIn (p : Parser) (item : SelectItem) : Prop :=
  ∃ e hidden, p.StoppedBy e ∧ StopsAt e hidden item

/-- The reading stopped in the last item of the list. -/
def StoppedInLast (p : Parser) (items : List SelectItem) : Prop :=
  ∃ item, items.getLast? = some item ∧ p.StoppedIn item

theorem StoppedInLast.cons {items : List SelectItem} (h : p.StoppedInLast items)
    (item : SelectItem) : p.StoppedInLast (item :: items) := by
  obtain ⟨last, hlast, hstopped⟩ := h
  refine ⟨last, ?_, hstopped⟩
  rw [List.getLast?_cons, hlast]
  rfl

/-- A block is closed unless the reading stopped in its list or stops at its end. -/
theorem close_stopped {resource : Resource} {fault : Option ParseError} {items : List SelectItem}
    (hfault : ∀ e, fault = some e → e.IsRecoverable)
    (hitems : p.halted = true → p.StoppedInLast items)
    (h : (close resource fault items p).2.halted = true) :
    (close resource fault items p).2.StoppedIn (close resource fault items p).1 := by
  unfold close at h ⊢
  split at h
  · next hhalted =>
    obtain ⟨item, hlast, e, hidden, hby, hstops⟩ := hitems hhalted
    rw [if_pos hhalted]
    cases fault with
    | none => exact ⟨e, hidden, hby, .inside _ hlast hstops⟩
    | some fault => exact ⟨e, true, hby, .behind (hfault fault rfl) _ hlast hstops⟩
  split at h
  · next hgoes _ => exact absurd h hgoes
  · next hgoes hparen =>
    rw [if_neg hgoes, if_neg hparen]
    exact ⟨_, false, Or.inl ⟨_, rfl⟩, .here _⟩

/-- An item halts the parser only where the reading stops in it. -/
theorem item_stopped {items : Parser → List SelectItem × Parser}
    (hitems : ∀ p, p.halted = false → (items p).2.halted = true →
      (items p).2.StoppedInLast (items p).1)
    (hp : p.halted = false) (h : (item items p).2.halted = true) :
    (item items p).2.StoppedIn (item items p).1 := by
  match hhead : head p with
  | .error e q =>
    rw [item_error hhead]
    exact ⟨e, false, ((head_reads p).error hhead).1, .here []⟩
  | .ok (.complete i) q =>
    rw [item_complete hhead] at h
    have hq : q.halted = p.halted := (head_reads p).halted_eq hhead
    rw [hq, hp] at h
    cases h
  | .ok (.opening resource fault) q =>
    have hq : q.halted = p.halted := (head_reads p).halted_eq hhead
    have hfault := ((head_reads p).ok hhead).1
    rw [hp] at hq
    by_cases hparen : q.peek = .rightParen
    · rw [item_empty hhead hparen] at h ⊢
      refine close_stopped hfault (fun hhalted => ?_) h
      rw [hq] at hhalted
      cases hhalted
    · rw [item_block hhead hparen] at h ⊢
      exact close_stopped hfault (hitems q.enter hq) h

/-- A list halts the parser only where the reading stops in its last item. -/
theorem itemsFrom_stopped (fuel : Nat) (hp : p.halted = false)
    (h : (itemsFrom fuel p).2.halted = true) :
    (itemsFrom fuel p).2.StoppedInLast (itemsFrom fuel p).1 := by
  induction fuel generalizing p with
  | zero =>
    rw [itemsFrom, hp] at h
    cases h
  | succ fuel ih =>
    have hitem := @item_stopped p (itemsFrom fuel) (fun _ => ih) hp
    rcases hread : item (itemsFrom fuel) p with ⟨i, q⟩
    rw [hread] at hitem
    by_cases hend : q.halted = true ∨ q.peek ≠ .comma
    · rw [itemsFrom_last hread hend] at h ⊢
      exact ⟨i, rfl, hitem h⟩
    · simp only [not_or, ne_eq, Decidable.not_not, Bool.not_eq_true] at hend
      rw [itemsFrom_comma hread hend.1 hend.2] at h ⊢
      exact (ih (p := q.advance) hend.1 h).cons i

/-- A query halts the parser only where the reading stops in its last item. -/
theorem parse_stopped (hp : p.halted = false) (h : p.parse.2.halted = true) :
    p.parse.2.StoppedInLast p.parse.1.items := by
  have htop : (topItems p).2.halted = true → (topItems p).2.StoppedInLast (topItems p).1 := by
    unfold topItems
    split
    · intro hhalted
      rw [hp] at hhalted
      cases hhalted
    · exact itemsFrom_stopped _ hp
  rw [parse_eq] at h ⊢
  split at h
  · next hend =>
    rw [if_pos hend]
    exact htop h
  · next hend =>
    rw [if_neg hend]
    refine ⟨_, List.getLast?_concat, ?_⟩
    exact ⟨_, false, Or.inl ⟨_, rfl⟩, .here []⟩

/-- Where the reading of a query stopped, its last item ends with an error about the token at which
the parser stands. It is the last error of the query exactly when no block hides it. -/
theorem last_error_of_stopped (query : String) (h : (ofQuery query).parse.2.halted = true) :
    ∃ item e hidden, (QueryTree.parse query).items.getLast? = some item ∧ StopsAt e hidden item ∧
      (ofQuery query).parse.2.StoppedBy e ∧
      ((QueryTree.parse query).errors.getLast? = some e ↔ hidden = false) := by
  obtain ⟨item, hlast, e, hidden, hby, hstops⟩ := parse_stopped rfl h
  refine ⟨item, e, hidden, hlast, hstops, hby, ?_⟩
  obtain ⟨last, hitem, hshown, hrecoverable⟩ := hstops.getLast?_errors
  have herrors : (QueryTree.parse query).errors.getLast? = some last :=
    getLast?_listErrors hlast hitem
  rw [herrors]
  cases hidden with
  | false => simp [hshown rfl]
  | true =>
    -- The error that stopped the reading ends it, the one that is told does not.
    have hne : last ≠ e := by
      rintro rfl
      have hfatal : last.cause.isFatal = false := hrecoverable rfl
      rw [hby.isFatal] at hfatal
      cases hfatal
    simp [hne]

/-- Two blocks deep a comma is missing. -/
theorem last_error_of_stopped_nested :
    (ofQuery "a, b(c(d e").parse.2.halted = true ∧
      ∃ item e hidden, (QueryTree.parse "a, b(c(d e").items.getLast? = some item ∧
        StopsAt e hidden item ∧ (ofQuery "a, b(c(d e").parse.2.StoppedBy e ∧
        ((QueryTree.parse "a, b(c(d e").errors.getLast? = some e ↔ hidden = false) := by
  have hhalted : (ofQuery "a, b(c(d e").parse.2.halted = true := by decide +kernel
  exact ⟨hhalted, last_error_of_stopped _ hhalted⟩

/-- The comma stops the reading, and only the missing alias is told. -/
theorem errors_emptyAlias :
    (ofQuery ":a(,)").parse.2.halted = true ∧
      ∀ e, (ofQuery ":a(,)").parse.2.StoppedBy e →
        (QueryTree.parse ":a(,)").errors.getLast? ≠ some e := by
  have herrors : (QueryTree.parse ":a(,)").errors = [⟨.emptyAlias, ⟨0, 1⟩⟩] := by decide +kernel
  refine ⟨by decide +kernel, fun e hby heq => ?_⟩
  rw [herrors] at heq
  obtain rfl := Option.some.inj heq
  cases hby.isFatal

end Parser

end EmbedQuery
