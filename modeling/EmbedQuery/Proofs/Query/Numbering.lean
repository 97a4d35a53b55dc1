import EmbedQuery.Proofs.Forest
import EmbedQuery.Proofs.Query.Grammar
import EmbedQuery.Query.Arena
import Mathlib.Data.List.Perm.Subperm

/-!
# Numbers of resources

Where the numbering of a list starts only shifts its numbers (`flattenList_add`), and the resources
of two lists one after the other take numbers one after the other (`flattenList_append`); `++` puts
numbered queries one after the other in this way.

A resource that an error discarded has a number that nothing refers to. Apart from that the numbers
are a forest: no number is referred to twice (`ids_flattenList`), a list refers to smaller numbers
only (`ids_lt_of_flattenList`), as many blocks lie in each other on a way down as in the list
(`countP_way_flattenList`), and without errors the numbers are the post-order
(`postOrder_flattenList`).
-/

namespace EmbedQuery

namespace Arena

/-- The numbers that items refer to. -/
abbrev itemIds (items : List Item) : List Nat := items.filterMap Item.id?

/-- The item with `n` added to the number in it. -/
def Item.shift (n : Nat) : Item → Item
  | wildcard span => .wildcard span
  | column c => .column c
  | count label cast span => .count label cast span
  | embed id => .embed (n + id)
  | invalid error => .invalid error

/-- The resource with `n` added to the numbers its list refers to. -/
def Node.shift (n : Nat) (node : Node) : Node :=
  ⟨node.resource, node.select.map (·.map (Item.shift n))⟩

/-- A numbered query and behind it another one: the numbers of the second follow on those of the
first. -/
def append (a b : Arena) : Arena where
  items := a.items ++ b.items.map (Item.shift a.nodes.length)
  nodes := a.nodes ++ b.nodes.map (Node.shift a.nodes.length)

instance : Append Arena := ⟨append⟩

end Arena

open Arena

/-! ### Lists side by side -/

theorem SelectItem.flatten_block (next : Nat) (resource : Resource) (items : List SelectItem) :
    (block resource items).flatten next =
      (.embed (next + (flattenList next items).2.length),
        (flattenList next items).2 ++ [⟨resource, some (flattenList next items).1⟩]) :=
  rfl

theorem flattenList_cons (next : Nat) (item : SelectItem) (items : List SelectItem) :
    flattenList next (item :: items) =
      ((item.flatten next).1 :: (flattenList (next + (item.flatten next).2.length) items).1,
        (item.flatten next).2 ++ (flattenList (next + (item.flatten next).2.length) items).2) :=
  rfl

/-- Lists one after the other are numbered one after the other. -/
theorem flattenList_append (next : Nat) (items more : List SelectItem) :
    flattenList next (items ++ more) =
      ((flattenList next items).1 ++
          (flattenList (next + (flattenList next items).2.length) more).1,
        (flattenList next items).2 ++
          (flattenList (next + (flattenList next items).2.length) more).2) := by
  induction items generalizing next with
  | nil => rfl
  | cons item items ih =>
    rw [List.cons_append, flattenList_cons, flattenList_cons, ih, List.cons_append,
      List.append_assoc, List.length_append, Nat.add_assoc]

mutual

theorem SelectItem.flatten_add (n : Nat) : ∀ (next : Nat) (item : SelectItem),
    item.flatten (n + next) =
      ((item.flatten next).1.shift n, (item.flatten next).2.map (Node.shift n))
  | _, .wildcard _ | _, .column _ | _, .count .. | _, .bare _ => rfl
  | next, .block resource items => by
    rw [SelectItem.flatten_block, SelectItem.flatten_block, flattenList_add n next items,
      List.length_map, List.map_append, Nat.add_assoc]
    rfl
  | next, .invalid error discarded => by
    rw [SelectItem.flatten, SelectItem.flatten, flattenList_add n next discarded]
    rfl

/-- Numbering from `n` further on gives numbers that are larger by `n`. -/
theorem flattenList_add (n : Nat) : ∀ (next : Nat) (items : List SelectItem),
    flattenList (n + next) items =
      ((flattenList next items).1.map (Item.shift n),
        (flattenList next items).2.map (Node.shift n))
  | _, [] => rfl
  | next, item :: items => by
    have hitems := flattenList_add n (next + (item.flatten next).2.length) items
    rw [flattenList_cons, flattenList_cons, item.flatten_add n next, List.length_map,
      Nat.add_assoc, hitems, List.map_cons, List.map_append]

end

/-- The numbered query of two lists one after the other. -/
theorem QueryTree.arena_append (items more : List SelectItem) :
    arena ⟨items ++ more⟩ = arena ⟨items⟩ ++ arena ⟨more⟩ := by
  have hadd := flattenList_add (flattenList 0 items).2.length 0 more
  show _ = Arena.append _ _
  simp only [arena, flattenList_append, Nat.zero_add]
  rw [Nat.add_zero] at hadd
  rw [hadd]
  rfl

/-! ### What lists refer to -/

mutual

theorem SelectItem.ids_flatten : ∀ (next : Nat) (item : SelectItem),
    ((item.flatten next).2.flatMap Node.ids ++ itemIds [(item.flatten next).1]).Subperm
      (List.range' next (item.flatten next).2.length)
  | _, .wildcard _ | _, .column _ | _, .count .. => List.nil_subperm
  | next, .bare _ => List.Subperm.refl [next]
  | next, .block resource items => by
    have hitems := ids_flattenList next items
    rw [SelectItem.flatten_block, List.flatMap_append, List.flatMap_singleton, List.length_append,
      List.length_singleton, List.range'_1_concat]
    exact hitems.append (List.Subperm.refl [_])
  | next, .invalid error discarded => by
    have hdiscarded := ids_flattenList next discarded
    have hnone : itemIds [((SelectItem.invalid error discarded).flatten next).1] = [] := rfl
    rw [hnone, List.append_nil]
    exact (List.sublist_append_left _ _).subperm.trans hdiscarded

/-- Lists refer to numbers of resources, and to none twice. -/
theorem ids_flattenList : ∀ (next : Nat) (items : List SelectItem),
    ((flattenList next items).2.flatMap Node.ids ++ itemIds (flattenList next items).1).Subperm
      (List.range' next (flattenList next items).2.length)
  | _, [] => List.nil_subperm
  | next, item :: items => by
    have hitem := item.ids_flatten next
    have hitems := ids_flattenList (next + (item.flatten next).2.length) items
    have hboth := hitem.append hitems
    rw [List.range'_append_1, ← List.length_append] at hboth
    refine List.Subperm.trans (List.Perm.subperm ?_) hboth
    rw [flattenList_cons]
    refine List.perm_iff_count.2 fun id => ?_
    simp only [itemIds, List.flatMap_append, List.filterMap_cons, List.count_append,
      List.filterMap_nil]
    cases (item.flatten next).1.id? <;> simp only [List.count_nil, List.count_cons] <;> omega

end

/-- The numbers that a list refers to are those of its own resources. -/
theorem mem_ids_flattenList {next id : Nat} {items : List SelectItem}
    (h : id ∈ itemIds (flattenList next items).1) :
    next ≤ id ∧ id < next + (flattenList next items).2.length :=
  List.mem_range'_1.1 ((ids_flattenList next items).subset (List.mem_append_right _ h))

mutual

theorem SelectItem.ids_lt_of_flatten : ∀ (next : Nat) (item : SelectItem) (i : Nat) (node : Node),
    (item.flatten next).2[i]? = some node → ∀ id ∈ node.ids, id < next + i
  | _, .wildcard _ | _, .column _ | _, .count .. => by simp [SelectItem.flatten]
  | _, .bare resource => by
    intro i node hnode id hid
    obtain rfl := List.mem_singleton.1 (List.mem_of_getElem? hnode)
    cases hid
  | next, .block resource items => by
    intro i node hnode id hid
    rw [SelectItem.flatten_block] at hnode
    obtain hlt | hge := Nat.lt_or_ge i (flattenList next items).2.length
    · rw [List.getElem?_append_left hlt] at hnode
      exact ids_lt_of_flattenList next items i node hnode id hid
    · rw [List.getElem?_append_right hge] at hnode
      obtain rfl := List.mem_singleton.1 (List.mem_of_getElem? hnode)
      have hbelow := (mem_ids_flattenList hid).2
      omega
  | next, .invalid _ discarded => ids_lt_of_flattenList next discarded

/-- A list refers to smaller numbers than that of its resource. -/
theorem ids_lt_of_flattenList : ∀ (next : Nat) (items : List SelectItem) (i : Nat) (node : Node),
    (flattenList next items).2[i]? = some node → ∀ id ∈ node.ids, id < next + i
  | _, [] => by simp [flattenList]
  | next, item :: items => by
    intro i node hnode id hid
    rw [flattenList_cons] at hnode
    obtain hlt | hge := Nat.lt_or_ge i (item.flatten next).2.length
    · rw [List.getElem?_append_left hlt] at hnode
      exact item.ids_lt_of_flatten next i node hnode id hid
    · rw [List.getElem?_append_right hge] at hnode
      have hlater := ids_lt_of_flattenList _ items _ node hnode id hid
      omega

end

/-! ### Walks and ways -/

mutual

theorem SelectItem.postOrder_flatten : ∀ (front back : List Node) (item : SelectItem),
    item.errors = [] →
      PostOrder (childrenIn Node.ids (front ++ (item.flatten front.length).2 ++ back))
        (itemIds [(item.flatten front.length).1])
        (List.range' front.length (item.flatten front.length).2.length)
  | _, _, .wildcard _ | _, _, .column _ | _, _, .count .. => fun _ => .nil
  | front, back, .bare resource => fun _ => by
    have hown := childrenIn_append_cons Node.ids front ⟨resource, none⟩ back
    show PostOrder (childrenIn _ (front ++ [⟨resource, none⟩] ++ back)) [front.length]
      ([] ++ front.length :: [])
    rw [List.append_assoc]
    refine .cons ?_ .nil
    rw [List.cons_append, List.nil_append, hown]
    exact .nil
  | front, back, .block resource items => fun herrors => by
    have hitems := postOrder_flattenList front
      (⟨resource, some (flattenList front.length items).1⟩ :: back) items herrors
    have hown := childrenIn_append_cons Node.ids (front ++ (flattenList front.length items).2)
      ⟨resource, some (flattenList front.length items).1⟩ back
    rw [List.length_append] at hown
    rw [SelectItem.flatten_block, List.length_append, List.length_singleton,
      List.range'_1_concat]
    simp only [List.append_assoc, List.cons_append, List.nil_append] at hitems hown ⊢
    refine .cons ?_ .nil
    rw [hown]
    exact hitems
  | _, _, .invalid error _ => fun herrors => absurd herrors (List.cons_ne_nil error [])

/-- The walk from a list without errors visits its resources one after the other. -/
theorem postOrder_flattenList : ∀ (front back : List Node) (items : List SelectItem),
    listErrors items = [] →
      PostOrder (childrenIn Node.ids (front ++ (flattenList front.length items).2 ++ back))
        (itemIds (flattenList front.length items).1)
        (List.range' front.length (flattenList front.length items).2.length)
  | _, _, [] => fun _ => .nil
  | front, back, item :: items => fun herrors => by
    obtain ⟨hitem, hitems⟩ := List.append_eq_nil_iff.1 herrors
    have hfirst := item.postOrder_flatten front
      ((flattenList (front.length + (item.flatten front.length).2.length) items).2 ++ back) hitem
    have hmore := postOrder_flattenList (front ++ (item.flatten front.length).2) back items hitems
    rw [List.length_append] at hmore
    rw [flattenList_cons, List.length_append, ← List.range'_append_1, itemIds,
      ← List.singleton_append, List.filterMap_append]
    simp only [List.append_assoc] at hfirst hmore ⊢
    exact hfirst.append hmore

end

namespace Arena

/-- A resource that was written with parentheses. -/
def Node.isBlock (node : Node) : Bool := node.select.isSome

/-- How many of some numbers are those of blocks. -/
def blockCount (nodes : List Node) (ids : List Nat) : Nat :=
  ids.countP fun id => nodes[id]?.any Node.isBlock

end Arena

mutual

theorem SelectItem.blockCount_flatten : ∀ (front back : List Node) (item : SelectItem)
    (way : List Nat),
    WayDown (childrenIn Node.ids (front ++ (item.flatten front.length).2 ++ back))
        (itemIds [(item.flatten front.length).1]) way →
      blockCount (front ++ (item.flatten front.length).2 ++ back) way ≤ item.nesting
  | _, _, .wildcard _, _ | _, _, .column _, _ | _, _, .count .., _ | _, _, .invalid .., _ =>
    fun hway => by
      obtain rfl := hway.eq_nil
      exact Nat.zero_le _
  | front, back, .bare resource, _ => fun hway => by
    have hown := childrenIn_append_cons Node.ids front ⟨resource, none⟩ back
    rw [SelectItem.flatten, List.append_assoc, List.cons_append, List.nil_append] at hway ⊢
    cases hway with
    | nil => exact Nat.zero_le _
    | cons hid hway =>
      obtain rfl := List.mem_singleton.1 hid
      rw [hown] at hway
      obtain rfl := hway.eq_nil
      simp [blockCount, Node.isBlock]
  | front, back, .block resource items, _ => fun hway => by
    have hitems := blockCount_flattenList front
      (⟨resource, some (flattenList front.length items).1⟩ :: back) items
    have hown := childrenIn_append_cons Node.ids (front ++ (flattenList front.length items).2)
      ⟨resource, some (flattenList front.length items).1⟩ back
    rw [List.length_append] at hown
    rw [SelectItem.flatten_block] at hway ⊢
    simp only [List.append_assoc, List.cons_append, List.nil_append] at hitems hown hway ⊢
    cases hway with
    | nil => exact Nat.zero_le _
    | cons hid hway =>
      obtain rfl := List.mem_singleton.1 hid
      rw [hown] at hway
      rw [blockCount, List.countP_cons]
      exact Nat.add_le_add (hitems _ hway) (by split <;> omega)

/-- No way down from a list leads through more blocks than lie in each other in it. -/
theorem blockCount_flattenList : ∀ (front back : List Node) (items : List SelectItem)
    (way : List Nat),
    WayDown (childrenIn Node.ids (front ++ (flattenList front.length items).2 ++ back))
        (itemIds (flattenList front.length items).1) way →
      blockCount (front ++ (flattenList front.length items).2 ++ back) way ≤ listNesting items
  | _, _, [], _ => fun hway => by
    obtain rfl := hway.eq_nil
    exact Nat.zero_le _
  | front, back, item :: items, way => fun hway => by
    have hfirst := item.blockCount_flatten front
      ((flattenList (front.length + (item.flatten front.length).2.length) items).2 ++ back) way
    have hmore := blockCount_flattenList (front ++ (item.flatten front.length).2) back items way
    rw [List.length_append] at hmore
    rw [flattenList_cons, itemIds, ← List.singleton_append, List.filterMap_append] at hway
    rw [flattenList_cons, listNesting]
    simp only [List.append_assoc] at hfirst hmore hway ⊢
    obtain hway | hway := hway.of_append
    · exact Nat.le_trans (hfirst hway) (Nat.le_max_left _ _)
    · exact Nat.le_trans (hmore hway) (Nat.le_max_right _ _)

end

end EmbedQuery
