import EmbedQuery.Proofs.Query.Numbering

/-!
# Lists with a gap

A gap is a place in a list of items at which other items can be put: at the top of the list, in the
list of a block at any depth, or in what an error discarded. Every numbered resource of a list stands
in a gap, and another resource in its place changes the numbered list under its number only
(`QueryTree.exists_gap`).
-/

namespace EmbedQuery

/-- A list of items with a gap in it. -/
inductive Gap
  /-- Between the items of the list. -/
  | among (front back : List SelectItem)
  /-- In the list of a block. -/
  | inside (front : List SelectItem) (resource : Resource) (gap : Gap) (back : List SelectItem)
  /-- In what an error discarded. -/
  | discarded (front : List SelectItem) (error : ParseError) (gap : Gap) (back : List SelectItem)

/-- The item of a resource with a list, or of a bare resource. -/
def SelectItem.ofResource (resource : Resource) : Option (List SelectItem) → SelectItem
  | none => .bare resource
  | some items => .block resource items

namespace Gap

/-- The list with items in the gap. -/
def fill (items : List SelectItem) : Gap → List SelectItem
  | among front back => front ++ (items ++ back)
  | inside front resource gap back => front ++ .block resource (gap.fill items) :: back
  | discarded front error gap back => front ++ .invalid error (gap.fill items) :: back

/-- The query with a resource and its list in the gap. -/
def query (gap : Gap) (list : Option (List SelectItem)) (resource : Resource) : QueryTree :=
  ⟨gap.fill [.ofResource resource list]⟩

/-- The name of the table that the gap stands on, if the list stands on the table named `root`: it
is the resource of the innermost block. -/
def tableName (root : String) : Gap → String
  | among .. => root
  | inside _ resource gap _ => gap.tableName resource.name
  | discarded _ _ gap _ => gap.tableName root

/-- The list with one more item in front. -/
def behind (item : SelectItem) : Gap → Gap
  | among front back => .among (item :: front) back
  | inside front resource gap back => .inside (item :: front) resource gap back
  | discarded front error gap back => .discarded (item :: front) error gap back

@[simp] theorem fill_behind (item : SelectItem) (items : List SelectItem) (gap : Gap) :
    (gap.behind item).fill items = item :: gap.fill items := by
  cases gap <;> rfl

/-- Only where the gap is all there is, nothing can be left. -/
theorem eq_nil_of_fill_eq_nil {items : List SelectItem} {gap : Gap} (h : gap.fill items = []) :
    items = [] ∧ gap = .among [] [] := by
  cases gap <;> simp_all [fill]

/-! ### The gap of a number -/

/-- The gap leaves out the resource with the number `id` of a list that is numbered from `next` on,
and `list` is the list of the resource. Any other resource would stand there under the same number,
and all else would be numbered alike. -/
structure LeavesOut (gap : Gap) (list : Option (List SelectItem)) (next : Nat)
    (items : List SelectItem) (id : Nat) (node : Arena.Node) : Prop where
  fill : gap.fill [.ofResource node.resource list] = items
  numbers : ∃ ids front back, front.length = id ∧ ∀ other,
    flattenList next (gap.fill [.ofResource other list]) =
      (ids, front ++ ⟨other, node.select⟩ :: back)

variable {gap : Gap} {list : Option (List SelectItem)} {next id : Nat} {items : List SelectItem}
  {node : Arena.Node}

theorem LeavesOut.behind (item : SelectItem)
    (h : gap.LeavesOut list (next + (item.flatten next).2.length) items id node) :
    (gap.behind item).LeavesOut list next (item :: items)
      ((item.flatten next).2.length + id) node := by
  obtain ⟨rfl, ids, front, back, rfl, hnumbers⟩ := h
  refine ⟨fill_behind .., (item.flatten next).1 :: ids, (item.flatten next).2 ++ front, back,
    List.length_append, fun other => ?_⟩
  rw [fill_behind, flattenList_cons, hnumbers, List.append_assoc]

theorem LeavesOut.inside (resource : Resource) (back : List SelectItem)
    (h : gap.LeavesOut list next items id node) :
    (Gap.inside [] resource gap back).LeavesOut list next (.block resource items :: back) id
      node := by
  obtain ⟨rfl, ids, front, rest, rfl, hnumbers⟩ := h
  let size := front.length + (rest.length + 1)
  let behind := flattenList (next + (size + 1)) back
  refine ⟨rfl, .embed (next + size) :: behind.1, front, rest ++ ⟨resource, some ids⟩ :: behind.2,
    rfl, fun other => ?_⟩
  show flattenList next (.block resource (gap.fill _) :: back) = _
  rw [flattenList_cons, SelectItem.flatten_block, hnumbers]
  simp [behind, size, Nat.add_assoc]

theorem LeavesOut.discarded (error : ParseError) (back : List SelectItem)
    (h : gap.LeavesOut list next items id node) :
    (Gap.discarded [] error gap back).LeavesOut list next (.invalid error items :: back) id
      node := by
  obtain ⟨rfl, ids, front, rest, rfl, hnumbers⟩ := h
  let behind := flattenList (next + (front.length + (rest.length + 1))) back
  refine ⟨rfl, .invalid error :: behind.1, front, rest ++ behind.2, rfl, fun other => ?_⟩
  show flattenList next (.invalid error (gap.fill _) :: back) = _
  rw [flattenList_cons, SelectItem.flatten, hnumbers]
  simp [behind]

/-- A resource in front is left out by the gap in front of what comes behind it. -/
theorem leavesOut_among {resource : Resource} {ref : Arena.Item} {select : Option (List Arena.Item)}
    (inner : List Arena.Node) (back : List SelectItem)
    (h : ∀ other, (SelectItem.ofResource other list).flatten next =
      (ref, inner ++ [⟨other, select⟩])) :
    (Gap.among [] back).LeavesOut list next (.ofResource resource list :: back) inner.length
      ⟨resource, select⟩ := by
  let behind := flattenList (next + (inner.length + 1)) back
  refine ⟨rfl, ref :: behind.1, inner, behind.2, rfl, fun other => ?_⟩
  show flattenList next (.ofResource other list :: back) = _
  rw [flattenList_cons, h]
  simp [behind]

mutual

theorem exists_leavesOut_item : ∀ (next : Nat) (item : SelectItem) (back : List SelectItem)
    {id : Nat} {node : Arena.Node}, (item.flatten next).2[id]? = some node →
      ∃ (gap : Gap) (list : Option (List SelectItem)), gap.LeavesOut list next (item :: back) id node
  | _, .wildcard _, _, _, _, h | _, .column _, _, _, _, h | _, .count .., _, _, _, h => by
    simp [SelectItem.flatten] at h
  | next, .bare resource, back, id, node, h => by
    obtain ⟨hid, rfl⟩ := List.getElem?_eq_some_iff.1 h
    obtain rfl : id = 0 := Nat.lt_one_iff.1 hid
    exact ⟨_, none, leavesOut_among [] back fun _ => rfl⟩
  | next, .block resource items, back, id, node, h => by
    rw [SelectItem.flatten_block] at h
    rcases Nat.lt_or_ge id (flattenList next items).2.length with hid | hid
    · rw [List.getElem?_append_left hid] at h
      obtain ⟨gap, list, hgap⟩ := exists_leavesOut_list next items h
      exact ⟨_, list, hgap.inside resource back⟩
    · rw [List.getElem?_append_right hid] at h
      obtain ⟨hlast, rfl⟩ := List.getElem?_eq_some_iff.1 h
      obtain rfl : id = (flattenList next items).2.length :=
        Nat.le_antisymm (Nat.sub_eq_zero_iff_le.1 (Nat.lt_one_iff.1 hlast)) hid
      simp only [Nat.sub_self]
      exact ⟨_, some items, leavesOut_among (flattenList next items).2 back fun _ => rfl⟩
  | next, .invalid error items, back, id, node, h => by
    obtain ⟨gap, list, hgap⟩ := exists_leavesOut_list next items h
    exact ⟨_, list, hgap.discarded error back⟩

theorem exists_leavesOut_list : ∀ (next : Nat) (items : List SelectItem) {id : Nat}
    {node : Arena.Node}, (flattenList next items).2[id]? = some node →
      ∃ (gap : Gap) (list : Option (List SelectItem)), gap.LeavesOut list next items id node
  | _, [], _, _, h => by
    simp [flattenList] at h
  | next, item :: items, id, node, h => by
    rw [flattenList_cons] at h
    rcases Nat.lt_or_ge id (item.flatten next).2.length with hid | hid
    · rw [List.getElem?_append_left hid] at h
      exact exists_leavesOut_item next item items h
    · rw [List.getElem?_append_right hid] at h
      obtain ⟨gap, list, hgap⟩ := exists_leavesOut_list _ items h
      have hbehind := hgap.behind item
      rw [Nat.add_sub_cancel' hid] at hbehind
      exact ⟨_, list, hbehind⟩

end

end Gap

theorem modify_length_append {α : Type} (front back : List α) (a : α) (f : α → α) :
    (front ++ a :: back).modify front.length f = front ++ f a :: back := by
  simp [List.modify_eq_take_cons_drop]

/-- The numbered query with another resource under the number `id`. -/
def Arena.replace (a : Arena) (id : Nat) (resource : Resource) : Arena :=
  { a with nodes := a.nodes.modify id fun node => { node with resource } }

/-- A numbered resource of a query stands in a gap, and any other resource would have its number and
its list. -/
theorem QueryTree.exists_gap (query : QueryTree) {id : Nat} {node : Arena.Node}
    (h : query.arena.nodes[id]? = some node) :
    ∃ (gap : Gap) (list : Option (List SelectItem)),
      query = gap.query list node.resource ∧
        ∀ other, (gap.query list other).arena = query.arena.replace id other := by
  obtain ⟨items⟩ := query
  obtain ⟨gap, list, hgap⟩ := Gap.exists_leavesOut_list 0 items h
  obtain ⟨rfl, ids, front, back, rfl, hnumbers⟩ := hgap
  refine ⟨gap, list, rfl, fun other => ?_⟩
  simp only [arena, Gap.query, Arena.replace, hnumbers, modify_length_append]

end EmbedQuery
