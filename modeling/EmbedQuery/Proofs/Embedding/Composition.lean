import EmbedQuery.Embedding.Resolve
import EmbedQuery.Proofs.Embedding.Consistency
import EmbedQuery.Proofs.Embedding.Numbering

/-!
# Queries are resolved piece by piece

Two lists of items one after the other mean what they mean apart, numbers of parts aside, which
follow on each other; and what a block means is what its list means on the table the block leads to,
wherever the block stands: `Resolver.resolve_compositional`.

For the second, `Resolver.BlockAt` says which number belongs to a block at any depth of a list. The
parts of the block are a segment of the numbered parts (`BlockAt.exists_segment`, by induction on
the place), and numbering a segment on its own only shifts it.
-/

namespace EmbedQuery

/-- Trees of one table, one behind the other, are numbered one after the other. -/
theorem EmbeddingTree.arena_append (s t : EmbeddingTree) :
    arena ⟨{ s.root with fields := s.root.fields ++ t.root.fields }, s.children ++ t.children⟩ =
      s.arena ++ t.arena := by
  have hshift := flattenNodes_eq_shift (nodesSize s.children) t.children
  show _ = EmbeddingArena.append s.arena t.arena
  simp [arena, EmbeddingArena.append, flattenNodes_append, length_flattenNodes, hshift]

/-- The part with the number `id`, which is the table `e`, holds what another tree has below its
root: its fields are those of the root, and right before it stands all that is below the root, every
number shifted alike. -/
structure EmbeddingArena.Holds (a : EmbeddingArena) (id : Nat) (e : Embedding)
    (children : List Nat) (b : EmbeddingArena) : Prop where
  fields : e.fields = b.root.fields
  segment : ∃ front back,
    a.nodes = front ++ b.nodes.map (Node.shift front.length) ++ .resolved e children :: back ∧
      front.length + b.nodes.length = id ∧ children = b.children.map (front.length + ·)

namespace Resolver

variable {r : Resolver} {resource : Resource} {inner : List SelectItem}

/-! ### Lists -/

theorem selectList_singleton (r : Resolver) (table : Table) (item : SelectItem) :
    r.selectList table [item] = r.selectItem table item := by
  show Selection.append (r.selectItem table item) {} = r.selectItem table item
  simp [Selection.append]

theorem selectList_append (r : Resolver) (table : Table) (items more : List SelectItem) :
    r.selectList table (items ++ more) = r.selectList table items ++ r.selectList table more := by
  induction items with
  | nil => rfl
  | cons item items ih =>
    rw [List.cons_append, selectList, selectList, ih]
    show Selection.append _ (Selection.append _ _) = Selection.append (Selection.append _ _) _
    simp only [Selection.append, List.append_assoc]

/-- The tree of a list of items. -/
theorem resolve_of_ne_nil {root : String} {table : Table} {items : List SelectItem}
    (htable : r.catalog.table? root = some table) (hne : items ≠ []) :
    r.resolve root ⟨items⟩ = .ok
      { root :=
          { key := root
            table := root
            cardinality := .toMany
            nullable := false
            fields := (r.selectList table items).fields }
        children := (r.selectList table items).children } := by
  rw [resolve, htable]
  cases items with
  | nil => exact absurd rfl hne
  | cons item items => rfl

/-! ### Blocks -/

/-- A block stands in a list that is resolved on a table, or in a block of it at any depth, and `id`
is the number of the part it becomes, if the parts of the list are numbered from `next` on. -/
inductive BlockAt (r : Resolver) (resource : Resource) (inner : List SelectItem) (id : Nat) :
    Table → Nat → List SelectItem → Prop
  /-- The block comes first. Inside a part, numbers come before its own. -/
  | here {table : Table} {next : Nat} (items : List SelectItem)
      (hid : id + 1 =
        next + (r.embed table resource fun target => r.selectList target inner).size) :
      BlockAt r resource inner id table next (.block resource inner :: items)
  /-- The block is inside the first item, which leads to a table. -/
  | inside {table target : Table} {next : Nat} {other : Resource} {list : List SelectItem}
      {found : Relationship} (items : List SelectItem)
      (hfound : r.relationship table.name other.name other.hint = .ok found)
      (htarget : r.catalog.table? other.name = some target)
      (h : BlockAt r resource inner id target next list) :
      BlockAt r resource inner id table next (.block other list :: items)
  /-- The block is behind the first item. -/
  | behind {table : Table} {next : Nat} {items : List SelectItem} (item : SelectItem)
      (h : BlockAt r resource inner id table (next + nodesSize (r.selectItem table item).children)
        items) :
      BlockAt r resource inner id table next (item :: items)

theorem flattenNodes_selectList_cons (r : Resolver) (table : Table) (next : Nat) (item : SelectItem)
    (items : List SelectItem) :
    (flattenNodes next (r.selectList table (item :: items)).children).2 =
      (flattenNodes next (r.selectItem table item).children).2 ++
        (flattenNodes (next + nodesSize (r.selectItem table item).children)
          (r.selectList table items).children).2 := by
  show (flattenNodes next (_ ++ _)).2 = _
  rw [flattenNodes_append]

/-- What a block at the head of a list becomes is numbered first. -/
theorem flattenNodes_selectList_block (r : Resolver) (table : Table) (next : Nat)
    (resource : Resource) (inner items : List SelectItem) :
    ∃ back, (flattenNodes next (r.selectList table (.block resource inner :: items)).children).2 =
      (r.embed table resource fun target => r.selectList target inner).flatten next ++ back := by
  have hblock : (flattenNodes next (r.selectItem table (.block resource inner)).children).2 =
      (r.embed table resource fun target => r.selectList target inner).flatten next :=
    List.append_nil _
  have hcons := r.flattenNodes_selectList_cons table next (.block resource inner) items
  exact ⟨_, hblock ▸ hcons⟩

theorem exists_embed_eq {table target : Table} {other : Resource} {found : Relationship}
    (hfound : r.relationship table.name other.name other.hint = .ok found)
    (htarget : r.catalog.table? other.name = some target) (select : Table → Selection) :
    ∃ e, r.embed table other select = .resolved e (select target).children :=
  ⟨_, embed_eq_resolved hfound htarget select⟩

/-- What a block becomes stands in a row, with its own number last, whatever stands around it. -/
theorem BlockAt.exists_segment {id : Nat} {table : Table} {next : Nat} {items : List SelectItem}
    (h : r.BlockAt resource inner id table next items) :
    ∃ parent front back,
      (flattenNodes next (r.selectList table items).children).2 =
          front ++ (r.embed parent resource fun target => r.selectList target inner).flatten
            (next + front.length) ++ back ∧
        id + 1 = next + front.length +
          (r.embed parent resource fun target => r.selectList target inner).size := by
  induction h with
  | @here table next items hid =>
    obtain ⟨back, hnodes⟩ := r.flattenNodes_selectList_block table next resource inner items
    exact ⟨table, [], back, hnodes, hid⟩
  | @inside table target next other list found items hfound htarget _ ih =>
    obtain ⟨parent, front, back, hnodes, hid⟩ := ih
    obtain ⟨e, he⟩ :=
      exists_embed_eq hfound htarget fun target => r.selectList target list
    obtain ⟨after, hblock⟩ := r.flattenNodes_selectList_block table next other list items
    -- The table's own number comes behind all that is inside it, so it only lengthens `back`.
    rw [he, EmbeddingNode.flatten_resolved, hnodes, List.append_assoc, List.append_assoc] at hblock
    exact ⟨parent, front, _, hblock, hid⟩
  | @behind table next items item _ ih =>
    obtain ⟨parent, front, back, hnodes, hid⟩ := ih
    have hlength := length_flattenNodes next (r.selectItem table item).children
    refine ⟨parent, (flattenNodes next (r.selectItem table item).children).2 ++ front, back, ?_, ?_⟩
    · rw [flattenNodes_selectList_cons, hnodes, List.length_append, hlength]
      simp only [List.append_assoc, Nat.add_assoc]
    · rw [List.length_append, hlength]
      omega

/-- What a block becomes is found under its number. If it is a table, then the tree of the list on
this table lies in it. -/
theorem BlockAt.holds {root : String} {table : Table} {items : List SelectItem} {id : Nat}
    {t : EmbeddingTree} (h : r.BlockAt resource inner id table 0 items) (hne : inner ≠ [])
    (htable : r.catalog.table? root = some table) (ht : r.resolve root ⟨items⟩ = .ok t) :
    ∃ part, t.arena.nodes[id]? = some part ∧ part.key? = some resource.key ∧
      ∀ e children, part = .resolved e children →
        ∃ u, r.resolve e.table ⟨inner⟩ = .ok u ∧ t.arena.Holds id e children u.arena := by
  obtain ⟨parent, front, back, hnodes, hid⟩ := h.exists_segment
  have hitems : items ≠ [] := by
    rintro rfl
    cases h
  rw [resolve_of_ne_nil htable hitems] at ht
  cases ht
  show ∃ part, (flattenNodes 0 (r.selectList table items).children).2[id]? = some part ∧ _
  rw [Nat.zero_add] at hnodes hid
  rcases r.embed_cases parent resource with
    ⟨error, -, hembed⟩ | ⟨found, target, -, htarget, hembed⟩
  · rw [hembed] at hnodes hid
    obtain rfl : id = front.length := Nat.succ.inj hid
    refine ⟨.failed (some resource.key) (.relationship error), ?_, rfl, ?_⟩
    · simp [hnodes, EmbeddingNode.flatten]
    · intro e children h
      cases h
  · rw [hembed, EmbeddingNode.flatten_resolved, flattenNodes_eq_shift front.length] at hnodes
    rw [hembed] at hid
    -- The parts below the table fill the numbers up to its own.
    have hlast : id =
        front.length + (flattenNodes 0 (r.selectList target inner).children).2.length := by
      rw [length_flattenNodes]
      exact Nat.succ.inj hid
    let e := r.embedding resource found target (r.selectList target inner).fields
    refine ⟨.resolved e ((flattenNodes 0 (r.selectList target inner).children).1.map
      (front.length + ·)), ?_, rfl, ?_⟩
    · rw [hnodes, hlast]
      simp [e]
    · rintro _ _ ⟨⟩
      have hname : e.table = resource.name := name_of_findTable htarget
      rw [← hname] at htarget
      refine ⟨_, resolve_of_ne_nil htarget hne, rfl, front, back, ?_, hlast.symm, rfl⟩
      simpa [EmbeddingTree.arena] using hnodes

/-! ### Piece by piece -/

/-- On a table of the catalog, two lists one after the other have the trees of both, one after the
other. A block that becomes a table, at any depth, has in it exactly the tree that its list has on
this table, shifted to where it stands. -/
theorem resolve_compositional (r : Resolver) {root : String} {table : Table}
    (htable : r.catalog.table? root = some table) :
    (∀ items more : List SelectItem, items ≠ [] → more ≠ [] →
        ∃ s t u, r.resolve root ⟨items⟩ = .ok s ∧ r.resolve root ⟨more⟩ = .ok t ∧
          r.resolve root ⟨items ++ more⟩ = .ok u ∧ u.arena = s.arena ++ t.arena) ∧
      ∀ (items inner : List SelectItem) (resource : Resource) (id : Nat) (t : EmbeddingTree),
        inner ≠ [] → r.resolve root ⟨items⟩ = .ok t → r.BlockAt resource inner id table 0 items →
          ∃ part, t.arena.nodes[id]? = some part ∧ part.key? = some resource.key ∧
            ∀ e children, part = .resolved e children →
              ∃ u, r.resolve e.table ⟨inner⟩ = .ok u ∧ t.arena.Holds id e children u.arena := by
  constructor
  · intro items more hitems hmore
    have happend : items ++ more ≠ [] := List.append_ne_nil_of_left_ne_nil hitems more
    refine ⟨_, _, _, resolve_of_ne_nil htable hitems, resolve_of_ne_nil htable hmore,
      resolve_of_ne_nil htable happend, ?_⟩
    rw [selectList_append, ← EmbeddingTree.arena_append]
    rfl
  · intro items inner resource id t hne ht hblock
    exact hblock.holds hne htable ht

end Resolver

/-- An item that could not be read. -/
def SelectItem.unread : SelectItem := .invalid ⟨.emptyAlias, ⟨0, 1⟩⟩ []

/-- The departments of some rows. -/
def Resource.departments : Resource := { name := "departments", span := ⟨23, 37⟩ }

/-- The managers of some employees: how many, and their departments. -/
def SelectItem.managers : SelectItem :=
  .block { name := "employees", hint := some "manager", span := ⟨3, 38⟩ }
    [.count none none ⟨21, 28⟩, .block .departments [.wildcard ⟨35, 36⟩]]

/-- The departments of managers, behind an error: they come after the error and before the managers,
and hold what `*` means on departments. -/
theorem Resolver.resolve_compositional_staff :
    ∃ table s t u e v, Catalog.table? .staff "employees" = some table ∧
      Resolver.resolve { catalog := .staff } "employees" ⟨[.unread]⟩ = .ok s ∧
      Resolver.resolve { catalog := .staff } "employees" ⟨[.managers]⟩ = .ok t ∧
      Resolver.resolve { catalog := .staff } "employees" ⟨[.unread, .managers]⟩ = .ok u ∧
      u.arena = s.arena ++ t.arena ∧
      Resolver.BlockAt { catalog := .staff } .departments [.wildcard ⟨35, 36⟩] 1 table 0
        [.unread, .managers] ∧
      u.arena.nodes[1]? = some (.resolved e []) ∧
      Resolver.resolve { catalog := .staff } e.table ⟨[.wildcard ⟨35, 36⟩]⟩ = .ok v ∧
      u.arena.Holds 1 e [] v.arena := by
  let r : Resolver := { catalog := .staff }
  let employees : Table := Catalog.staff.tables[1]
  have htable : r.catalog.table? "employees" = some employees := rfl
  let managers : Resource := { name := "employees", hint := some "manager", span := ⟨3, 38⟩ }
  obtain ⟨found, hfound⟩ :
      ∃ found, r.relationship employees.name managers.name managers.hint = .ok found :=
    ⟨_, (r.relationship_eq_ok_iff _ _ _ _).2
      ⟨⟨0, Catalog.staff.foreignKeys[0], .forward⟩, by decide, rfl⟩⟩
  obtain ⟨way, hway⟩ : ∃ way, r.relationship employees.name Resource.departments.name
      Resource.departments.hint = .ok way :=
    ⟨_, (r.relationship_eq_ok_iff _ _ _ _).2
      ⟨⟨1, Catalog.staff.foreignKeys[1], .forward⟩, by decide, rfl⟩⟩
  obtain ⟨e, he⟩ := exists_embed_eq hway rfl fun target =>
    r.selectList target [.wildcard ⟨35, 36⟩]
  obtain ⟨boss, hboss⟩ := exists_embed_eq hfound htable fun target =>
    r.selectList target [.count none none ⟨21, 28⟩, .block .departments [.wildcard ⟨35, 36⟩]]
  have hblock : r.BlockAt .departments [.wildcard ⟨35, 36⟩] 1 employees 0
      [.unread, .managers] := by
    refine .behind _ (.inside [] hfound htable (.behind _ (.here [] ?_)))
    rw [he]
    rfl
  obtain ⟨happend, hholds⟩ := resolve_compositional r htable
  obtain ⟨s, t, u, hs, ht, hu, harena⟩ :=
    happend [.unread] [.managers] (List.cons_ne_nil _ _) (List.cons_ne_nil _ _)
  obtain ⟨part, hpart, -, hinside⟩ := hholds _ _ _ 1 u (List.cons_ne_nil _ _) hu hblock
  have hresolved : u.arena.nodes[1]? = some (.resolved e []) := by
    cases (resolve_of_ne_nil htable (List.cons_ne_nil _ _)).symm.trans hu
    show (flattenNodes 0 [_, r.embed employees _ _]).2[1]? = _
    rw [hboss]
    show (flattenNodes 0 [_, .resolved boss [r.embed employees .departments _]]).2[1]? = _
    rw [he]
    rfl
  cases hpart.symm.trans hresolved
  obtain ⟨v, hv, hlies⟩ := hinside e [] rfl
  exact ⟨employees, s, t, u, e, v, htable, hs, ht, hu, harena, hblock, hresolved, hv, hlies⟩

end EmbedQuery
