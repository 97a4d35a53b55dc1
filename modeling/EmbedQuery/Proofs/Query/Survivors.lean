import EmbedQuery.Proofs.Query.RoundTrip

/-!
# The canonical form of a query with errors

The canonical form leaves errors out, and so it is written for the tree without them
(`QueryTree.withoutErrors`). Reading a query with errors leaves only items that the grammar can
write (`Parser.itemsFrom_writable`): a block whose reading stopped inside it is written with its
closing parenthesis, and one that lost all its items is written empty. So the canonical form of any
query is read without errors, and written again it is the same.

One kind of item changes on the way. What would be an empty block without modifiers under the name
`count` is by the grammar the number of rows, so that no query text stands for such a block
(`exists_parse_eq_withoutErrors_iff`). It can come about all the same, when every item of the block
was an error (`SelectItem.BecomesCount`).
-/

namespace EmbedQuery

/-! ### Leaving errors out -/

mutual

/-- The item without the errors in its lists; nothing is left of an error. -/
def SelectItem.survivor? : SelectItem → Option SelectItem
  | .wildcard span => some (.wildcard span)
  | .column column => some (.column column)
  | .count label cast span => some (.count label cast span)
  | .bare resource => some (.bare resource)
  | .block resource items => some (.block resource (survivors items))
  | .invalid .. => none

/-- What is left of the items of a list. -/
def survivors : List SelectItem → List SelectItem
  | [] => []
  | item :: items => item.survivor?.toList ++ survivors items

end

/-- The query without its errors. -/
def QueryTree.withoutErrors (t : QueryTree) : QueryTree := ⟨survivors t.items⟩

mutual

theorem SelectItem.errors_survivor? :
    ∀ item : SelectItem, item.survivor?.toList.flatMap SelectItem.errors = []
  | .wildcard _ | .column _ | .count .. | .bare _ | .invalid .. => rfl
  | .block resource items => by
    have hitems := listErrors_survivors items
    simp [SelectItem.survivor?, SelectItem.errors, hitems]

/-- No error is left. -/
theorem listErrors_survivors : ∀ items, listErrors (survivors items) = []
  | [] => rfl
  | item :: items => by
    have hitem := item.errors_survivor?
    have hitems := listErrors_survivors items
    rw [survivors, listErrors_append, hitems, listErrors_eq_flatMap, hitem, List.append_nil]

end

theorem survivors_append (items more : List SelectItem) :
    survivors (items ++ more) = survivors items ++ survivors more := by
  induction items with
  | nil => rfl
  | cons item items ih => simp [survivors, ih]

mutual

theorem SelectItem.tokens_survivor? :
    ∀ item : SelectItem, item.survivor?.bind SelectItem.tokens = item.tokens
  | .wildcard _ | .column _ | .count .. | .bare _ | .invalid .. => rfl
  | .block resource items => by
    have hitems := itemTokens_survivors items
    simp [SelectItem.survivor?, SelectItem.tokens, hitems]

/-- The canonical form is that of what is left. -/
theorem itemTokens_survivors : ∀ items, itemTokens (survivors items) = itemTokens items
  | [] => rfl
  | item :: items => by
    have hitem := item.tokens_survivor?
    have hitems := itemTokens_survivors items
    rw [survivors, itemTokens_eq_filterMap, List.filterMap_append, ← itemTokens_eq_filterMap,
      ← itemTokens_eq_filterMap, hitems, itemTokens, ← hitem]
    cases item.survivor? <;> simp [itemTokens]

end

/-! ### Reading back -/

/-- The resource is written as the bare name `count`. -/
def Resource.IsCount (r : Resource) : Prop :=
  r.name = "count" ∧ r.hint = none ∧ r.join = .default

instance (r : Resource) : Decidable r.IsCount := inferInstanceAs (Decidable (_ ∧ _ ∧ _))

mutual

/-- What the canonical form of an item is read as: an empty block of the bare name `count` is the
number of rows. -/
def SelectItem.readBack : SelectItem → SelectItem
  | .wildcard span => .wildcard span
  | .column column => .column column
  | .count label cast span => .count label cast span
  | .bare resource => .bare resource
  | .block resource items =>
    if resource.IsCount ∧ items.isEmpty then .count resource.label none resource.span
    else .block resource (readBackList items)
  | .invalid error discarded => .invalid error discarded

def readBackList : List SelectItem → List SelectItem
  | [] => []
  | item :: items => item.readBack :: readBackList items

end

/-- What the canonical form of a query is read as. -/
def QueryTree.readBack (t : QueryTree) : QueryTree := ⟨readBackList t.items⟩

theorem readBackList_eq_nil_iff {items : List SelectItem} :
    readBackList items = [] ↔ items = [] := by
  cases items <;> simp [readBackList]

/-- An empty block of the bare name `count` is written like the number of rows. -/
theorem Resource.IsCount.tokens {r : Resource} (h : r.IsCount) :
    r.tokens = aliasTokens r.label ++ [.identifier "count"] := by
  obtain ⟨hname, hhint, hjoin⟩ := h
  rw [Resource.tokens, hname, hhint, hjoin]
  rfl

mutual

theorem SelectItem.tokens_readBack : ∀ item : SelectItem, item.readBack.tokens = item.tokens
  | .wildcard _ | .column _ | .count .. | .bare _ | .invalid .. => rfl
  | .block resource items => by
    rw [SelectItem.readBack]
    split
    · next h =>
      obtain rfl := List.isEmpty_iff.1 h.2
      simp [SelectItem.tokens, h.1.tokens, itemTokens, castTokens]
    · have hitems := itemTokens_readBackList items
      simp [SelectItem.tokens, hitems]

/-- What is read back is written alike. -/
theorem itemTokens_readBackList : ∀ items, itemTokens (readBackList items) = itemTokens items
  | [] => rfl
  | item :: items => by
    have hitem := item.tokens_readBack
    have hitems := itemTokens_readBackList items
    rw [readBackList, itemTokens, itemTokens, hitem, hitems]

end

mutual

theorem SelectItem.survivor?_mapSpans (f : Span → Span) : ∀ item : SelectItem,
    (item.mapSpans f).survivor? = item.survivor?.map (SelectItem.mapSpans f)
  | .wildcard _ | .column _ | .count .. | .bare _ | .invalid .. => rfl
  | .block resource items => by
    have hitems := survivors_mapSpansList f items
    simp [SelectItem.mapSpans, SelectItem.survivor?, hitems]

theorem survivors_mapSpansList (f : Span → Span) : ∀ items,
    survivors (mapSpansList f items) = mapSpansList f (survivors items)
  | [] => rfl
  | item :: items => by
    have hitem := item.survivor?_mapSpans f
    have hitems := survivors_mapSpansList f items
    rw [mapSpansList, survivors, survivors, hitem, hitems, mapSpansList_append]
    cases item.survivor? <;> rfl

end

mutual

theorem SelectItem.readBack_mapSpans (f : Span → Span) : ∀ item : SelectItem,
    (item.mapSpans f).readBack = item.readBack.mapSpans f
  | .wildcard _ | .column _ | .count .. | .bare _ | .invalid .. => rfl
  | .block resource items => by
    have hitems := readBackList_mapSpansList f items
    have hempty : (mapSpansList f items).isEmpty = items.isEmpty := by cases items <;> rfl
    have hcount : (resource.mapSpans f).IsCount ↔ resource.IsCount := Iff.rfl
    simp only [SelectItem.mapSpans, SelectItem.readBack, hempty, hcount, hitems]
    split <;> rfl

theorem readBackList_mapSpansList (f : Span → Span) : ∀ items,
    readBackList (mapSpansList f items) = mapSpansList f (readBackList items)
  | [] => rfl
  | item :: items => by
    have hitem := item.readBack_mapSpans f
    have hitems := readBackList_mapSpansList f items
    rw [mapSpansList, readBackList, readBackList, hitem, hitems, mapSpansList]

end

/-- Spans play no part in what is left of a query and what that is read back as. -/
theorem QueryTree.readBack_withoutErrors_eraseSpans (t : QueryTree) :
    t.eraseSpans.withoutErrors.readBack = t.withoutErrors.readBack.eraseSpans := by
  simp [eraseSpans, mapSpans, withoutErrors, readBack, survivors_mapSpansList,
    readBackList_mapSpansList]

/-! ### What is lost on the way -/

/-- Somewhere in the item a block under the bare name `count` is left without items. -/
inductive SelectItem.BecomesCount : SelectItem → Prop
  | here {resource : Resource} {items : List SelectItem} (hcount : resource.IsCount)
      (hitems : survivors items = []) : BecomesCount (.block resource items)
  | inside {item : SelectItem} {items : List SelectItem} (resource : Resource)
      (hmem : item ∈ items) (hitem : BecomesCount item) : BecomesCount (.block resource items)

theorem SelectItem.becomesCount_block_iff {resource : Resource} {items : List SelectItem} :
    (SelectItem.block resource items).BecomesCount ↔
      resource.IsCount ∧ survivors items = [] ∨ ∃ item ∈ items, item.BecomesCount := by
  constructor
  · intro h
    cases h with
    | here hcount hitems => exact Or.inl ⟨hcount, hitems⟩
    | inside _ hmem hitem => exact Or.inr ⟨_, hmem, hitem⟩
  · rintro (⟨hcount, hitems⟩ | ⟨item, hmem, hitem⟩)
    · exact .here hcount hitems
    · exact .inside resource hmem hitem

mutual

theorem SelectItem.readBack_survivor?_iff (f : Span → Span) : ∀ item : SelectItem,
    item.survivor?.map (fun s => s.readBack.mapSpans f) =
        item.survivor?.map (SelectItem.mapSpans f) ↔ ¬item.BecomesCount
  | .wildcard _ | .column _ | .count .. | .bare _ | .invalid .. => iff_of_true rfl nofun
  | .block resource items => by
    have hitems := readBackList_survivors_iff f items
    rw [SelectItem.becomesCount_block_iff, not_or, SelectItem.survivor?, Option.map_some,
      Option.map_some, SelectItem.readBack]
    split
    · next h =>
      obtain ⟨hcount, hempty⟩ := h
      simp [hcount, List.isEmpty_iff.1 hempty, SelectItem.mapSpans]
    · next h =>
      have hkept : ¬(resource.IsCount ∧ survivors items = []) := by
        rwa [List.isEmpty_iff] at h
      simp [hkept, SelectItem.mapSpans, hitems]

/-- What is left of a list is read back as it is exactly when no block in it becomes `count()`. -/
theorem readBackList_survivors_iff (f : Span → Span) : ∀ items,
    mapSpansList f (readBackList (survivors items)) = mapSpansList f (survivors items) ↔
      ∀ item ∈ items, ¬item.BecomesCount
  | [] => iff_of_true rfl nofun
  | item :: items => by
    have hitem := item.readBack_survivor?_iff f
    have hitems := readBackList_survivors_iff f items
    rw [List.forall_mem_cons, ← hitem, ← hitems, survivors]
    cases item.survivor? <;> simp [readBackList, mapSpansList]

end

/-- What is left of a query is read back as it is exactly when no block in it becomes `count()`. -/
theorem QueryTree.readBack_withoutErrors_iff (t : QueryTree) :
    t.withoutErrors.readBack.eraseSpans = t.withoutErrors.eraseSpans ↔
      ∀ item ∈ t.items, ¬item.BecomesCount := by
  rw [← readBackList_survivors_iff (fun _ => {}) t.items]
  exact QueryTree.mk.injEq _ _ ▸ Iff.rfl

end EmbedQuery
