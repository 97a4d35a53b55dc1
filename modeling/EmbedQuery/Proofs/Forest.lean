import Mathlib.Data.List.Induction
import Mathlib.Data.List.Nodup
import Mathlib.Logic.Relation

/-!
# Forests of numbers

Each number has a list of numbers for its children. `PostOrder children roots visited` says that a
walk from the roots, which visits a number behind everything below it, visits the numbers in the
order `visited`; a walk that comes to a number twice has it in there twice.

If such a walk visits an interval, upwards, then every number of the interval stands in exactly one
of the lists (`PostOrder.perm`), and what is below a number are the numbers right before it
(`PostOrder.exists_first`). A way down leads to every number that is visited
(`PostOrder.exists_way`), and no other one where no number stands in two lists (`WayDown.unique`).
Where the lists are those of the nodes in a list of nodes and the walk visits them all, the nodes are
a forest in post-order.
-/

namespace EmbedQuery

/-- A walk from some roots, and the numbers in the order in which it visits them. -/
inductive PostOrder (children : Nat → List Nat) : List Nat → List Nat → Prop
  | nil : PostOrder children [] []
  | cons {id : Nat} {ids inner more : List Nat} (hinner : PostOrder children (children id) inner)
      (hmore : PostOrder children ids more) : PostOrder children (id :: ids) (inner ++ id :: more)

/-- The number `d` is a child of `id`, or below a child of it. -/
def Below (children : Nat → List Nat) : Nat → Nat → Prop :=
  Relation.TransGen fun d id => d ∈ children id

variable {children : Nat → List Nat} {roots visited : List Nat} {d id : Nat}

theorem below_iff :
    Below children d id ↔ ∃ child ∈ children id, d = child ∨ Below children d child := by
  unfold Below
  rw [Relation.TransGen.tail'_iff]
  simp only [Relation.reflTransGen_iff_eq_or_transGen, eq_comm, and_comm]

namespace PostOrder

theorem append {more visited' : List Nat} (h : PostOrder children roots visited)
    (h' : PostOrder children more visited') :
    PostOrder children (roots ++ more) (visited ++ visited') := by
  induction h with
  | nil => exact h'
  | cons hinner _ _ ihmore =>
    rw [List.append_assoc, List.cons_append, List.cons_append]
    exact .cons hinner ihmore

/-- The numbers that a walk visits are the roots and the children of those it visits, as often as
they stand there. -/
theorem perm (h : PostOrder children roots visited) :
    visited.Perm (roots ++ visited.flatMap children) := by
  induction h with
  | nil => exact .nil
  | cons _ _ ihinner ihmore =>
    refine List.perm_iff_count.2 fun d => ?_
    have hinner := ihinner.count_eq d
    have hmore := ihmore.count_eq d
    simp only [List.cons_append, List.flatMap_append, List.flatMap_cons, List.count_append,
      List.count_cons] at hinner hmore ⊢
    omega

/-- A walk visits the roots and what is below them. -/
theorem mem_iff (h : PostOrder children roots visited) :
    d ∈ visited ↔ ∃ id ∈ roots, d = id ∨ Below children d id := by
  induction h with
  | nil => simp
  | cons _ _ ihinner ihmore =>
    rw [List.mem_append, List.mem_cons, ihinner, ihmore, ← below_iff]
    simp only [List.mem_cons, exists_eq_or_imp]
    rw [← or_assoc, or_comm (a := Below _ _ _)]

/-- Where a walk visits an interval, what is below a number are the numbers right before it. -/
theorem exists_first {low n : Nat} (h : PostOrder children roots (List.range' low n)) :
    ∀ id, low ≤ id → id < low + n →
      ∃ first ≤ id, ∀ d, Below children d id ↔ first ≤ d ∧ d < id := by
  generalize hvisited : List.range' low n = visited at h
  induction h generalizing low n with
  | nil =>
    obtain rfl : n = 0 := by simpa using hvisited
    omega
  | @cons id ids inner more hinner hmore ihinner ihmore =>
    -- The walk visits what is below `id`, then `id`, then the rest of the interval.
    obtain ⟨k, hk, rfl, hrest⟩ := List.range'_eq_append_iff.1 hvisited
    obtain ⟨rfl, hpos, rfl⟩ := List.range'_eq_cons_iff.1 hrest.symm
    intro id' hlow hhigh
    rcases Nat.lt_trichotomy id' (low + k * 1) with hlt | rfl | hgt
    · exact ihinner rfl id' hlow (by omega)
    · refine ⟨low, hlow, fun d => ?_⟩
      rw [below_iff, ← hinner.mem_iff, List.mem_range'_1, Nat.mul_one]
    · exact ihmore rfl id' hgt (by omega)

end PostOrder

/-! ### Ways down -/

/-- A way down: it begins with one of some numbers, and then each number is a child of the one
before it. -/
inductive WayDown (children : Nat → List Nat) : List Nat → List Nat → Prop
  | nil {ids : List Nat} : WayDown children ids []
  | cons {id : Nat} {ids way : List Nat} (hid : id ∈ ids)
      (hway : WayDown children (children id) way) : WayDown children ids (id :: way)

namespace WayDown

variable {ids more way : List Nat}

theorem eq_nil (h : WayDown children [] way) : way = [] := by
  cases h with
  | nil => rfl
  | cons hid => cases hid

theorem of_append (h : WayDown children (ids ++ more) way) :
    WayDown children ids way ∨ WayDown children more way := by
  cases h with
  | nil => exact Or.inl .nil
  | cons hid hway =>
    obtain hid | hid := List.mem_append.1 hid
    · exact Or.inl (.cons hid hway)
    · exact Or.inr (.cons hid hway)

end WayDown

theorem wayDown_cons_iff {ids way : List Nat} :
    WayDown children ids (id :: way) ↔ id ∈ ids ∧ WayDown children (children id) way := by
  constructor
  · rintro (_ | ⟨hid, hway⟩)
    exact ⟨hid, hway⟩
  · rintro ⟨hid, hway⟩
    exact .cons hid hway

/-- The numbers that stand side by side under a number, or at the top. -/
def listUnder (children : Nat → List Nat) (roots : List Nat) : Option Nat → List Nat
  | none => roots
  | some id => children id

/-- A way goes on with a child of the number it has come to. -/
theorem wayDown_concat_iff {ids way : List Nat} :
    WayDown children ids (way ++ [id]) ↔
      WayDown children ids way ∧ id ∈ listUnder children ids way.getLast? := by
  induction way generalizing ids with
  | nil =>
    rw [List.nil_append, wayDown_cons_iff, and_iff_left .nil]
    exact (and_iff_right .nil).symm
  | cons d way ih =>
    have hlast : listUnder children (children d) way.getLast? =
        listUnder children ids (d :: way).getLast? := by
      rw [List.getLast?_cons]
      cases way.getLast? <;> rfl
    rw [List.cons_append, wayDown_cons_iff, ih, hlast, wayDown_cons_iff, and_assoc]

/-- Where no number stands in two lists, one way at most leads to a number. -/
theorem WayDown.unique {way way' : List Nat}
    (hlists : ∀ d parent parent', d ∈ listUnder children roots parent →
      d ∈ listUnder children roots parent' → parent = parent')
    (h : WayDown children roots way) (h' : WayDown children roots way')
    (hlast : way.getLast? = way'.getLast?) : way = way' := by
  -- From the end upwards: both ways come from the one list that the last number stands in.
  induction way using List.reverseRecOn generalizing way' with
  | nil => exact (List.getLast?_eq_none_iff.1 hlast.symm).symm
  | append_singleton way id ih =>
    rw [List.getLast?_concat] at hlast
    obtain ⟨way', rfl⟩ := List.getLast?_eq_some_iff.1 hlast.symm
    obtain ⟨hway, hid⟩ := wayDown_concat_iff.1 h
    obtain ⟨hway', hid'⟩ := wayDown_concat_iff.1 h'
    rw [ih hway hway' (hlists id _ _ hid hid')]

/-- To each number that a walk visits there is a way down from the roots. -/
theorem PostOrder.exists_way (h : PostOrder children roots visited) (hid : id ∈ visited) :
    ∃ way, WayDown children roots way ∧ way.getLast? = some id := by
  induction h with
  | nil => cases hid
  | @cons root roots inner more hinner hmore ihinner ihmore =>
    rw [List.mem_append, List.mem_cons] at hid
    rcases hid with hid | rfl | hid
    · obtain ⟨way, hway, hlast⟩ := ihinner hid
      exact ⟨root :: way, .cons List.mem_cons_self hway, by rw [List.getLast?_cons, hlast]; rfl⟩
    · exact ⟨[id], .cons List.mem_cons_self .nil, rfl⟩
    · obtain ⟨way, hway, hlast⟩ := ihmore hid
      cases hway with
      | nil => cases hlast
      | cons hfirst hway => exact ⟨_, .cons (List.mem_cons_of_mem _ hfirst) hway, hlast⟩

/-! ### Lists of nodes -/

variable {α : Type}

/-- The list of the node that stands at a number, read by `ids`. -/
def childrenIn (ids : α → List Nat) (nodes : List α) (id : Nat) : List Nat :=
  nodes[id]?.elim [] ids

theorem childrenIn_append_cons (ids : α → List Nat) (front : List α) (node : α) (back : List α) :
    childrenIn ids (front ++ node :: back) front.length = ids node := by
  simp [childrenIn]

theorem mem_childrenIn_iff {ids : α → List Nat} {nodes : List α} :
    d ∈ childrenIn ids nodes id ↔ ∃ node, nodes[id]? = some node ∧ d ∈ ids node := by
  unfold childrenIn
  cases nodes[id]? <;> simp

theorem flatMap_childrenIn (ids : α → List Nat) (nodes : List α) :
    (List.range nodes.length).flatMap (childrenIn ids nodes) = nodes.flatMap ids := by
  have hmap : (List.range nodes.length).map (childrenIn ids nodes) = nodes.map ids := by
    refine List.ext_getElem (by simp) fun i hi hi' => ?_
    rw [List.length_map, List.length_range] at hi
    simp [childrenIn, hi]
  rw [List.flatMap_def, hmap, List.flatMap_def]

section Lists

variable {ids : α → List Nat} {nodes : List α} (h : (roots ++ nodes.flatMap ids).Nodup)
include h

/-- Where no number stands twice in the lists, none of the lists has a number twice. -/
theorem nodup_listUnder (parent : Option Nat) :
    (listUnder (childrenIn ids nodes) roots parent).Nodup := by
  obtain ⟨hroots, hnodes, -⟩ := List.nodup_append.1 h
  cases parent with
  | none => exact hroots
  | some id =>
    simp only [listUnder, childrenIn]
    cases hnode : nodes[id]? with
    | none => exact List.nodup_nil
    | some node => exact (List.nodup_flatMap.1 hnodes).1 node (List.mem_of_getElem? hnode)

/-- Where no number stands twice in the lists, no two lists have a number in common. -/
theorem listUnder_unique {parent parent' : Option Nat}
    (hd : d ∈ listUnder (childrenIn ids nodes) roots parent)
    (hd' : d ∈ listUnder (childrenIn ids nodes) roots parent') : parent = parent' := by
  obtain ⟨-, hnodes, hapart⟩ := List.nodup_append.1 h
  have htop (id : Nat) (hroot : d ∈ roots) (hid : d ∈ childrenIn ids nodes id) : False := by
    obtain ⟨node, hnode, hmem⟩ := mem_childrenIn_iff.1 hid
    exact hapart d hroot d (List.mem_flatMap.2 ⟨node, List.mem_of_getElem? hnode, hmem⟩) rfl
  have hdisjoint (id id' : Nat) (hlt : id < id') (hid : d ∈ childrenIn ids nodes id)
      (hid' : d ∈ childrenIn ids nodes id') : False := by
    obtain ⟨node, hnode, hmem⟩ := mem_childrenIn_iff.1 hid
    obtain ⟨node', hnode', hmem'⟩ := mem_childrenIn_iff.1 hid'
    obtain ⟨hbound, rfl⟩ := List.getElem?_eq_some_iff.1 hnode
    obtain ⟨hbound', rfl⟩ := List.getElem?_eq_some_iff.1 hnode'
    have hpairs := List.pairwise_iff_getElem.1 (List.nodup_flatMap.1 hnodes).2
    exact hpairs id id' hbound hbound' hlt hmem hmem'
  match parent, parent' with
  | none, none => rfl
  | none, some id => exact (htop id hd hd').elim
  | some id, none => exact (htop id hd' hd).elim
  | some id, some id' =>
    rcases Nat.lt_trichotomy id id' with hlt | rfl | hgt
    · exact (hdisjoint id id' hlt hd hd').elim
    · rfl
    · exact (hdisjoint id' id hgt hd' hd).elim

end Lists

/-- Where a walk visits all nodes of a list one after the other, each number stands in exactly one
list. -/
theorem PostOrder.perm_range {ids : α → List Nat} {nodes : List α}
    (h : PostOrder (childrenIn ids nodes) roots (List.range nodes.length)) :
    (roots ++ nodes.flatMap ids).Perm (List.range nodes.length) := by
  rw [← flatMap_childrenIn]
  exact h.perm.symm

end EmbedQuery
