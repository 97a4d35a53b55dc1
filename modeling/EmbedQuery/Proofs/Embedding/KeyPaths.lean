import EmbedQuery.Proofs.Embedding.ParseErrors

/-!
# Paths of keys

A path of keys is followed from the root: under each key the first part that has it is taken, and
all parts but the last have to be tables. There is no way back from a part that was taken.

Equal parts may stand in two places, so what is found is told by its number (`idAt?`). In a forest
one way leads to a part, so a part with a key has one path of keys (`IsForest.exists_path`). The
path finds the part exactly if no part on the way has the key of an earlier one beside it, and it
finds no other parts (`IsForest.idAt?_eq_some_iff`, by induction on the path). What is found in the
nested tree is the part with that number (`EmbeddingTree.rel_get?`). For the trees of queries all of
this is `Resolver.resolve_isNavigable`.
-/

namespace EmbedQuery

namespace EmbeddingNode

/-- Under its first key a path goes on in the part that is found there, if this is a table. -/
theorem get?_cons_cons (nodes : List EmbeddingNode) (key next : String) (path : List String) :
    get? nodes (key :: next :: path) =
      match find? nodes key with
      | some (resolved _ children) => get? children (next :: path)
      | some (failed ..) | none => none :=
  rfl

/-- There is nothing below an error. -/
theorem get?_append_of_failed {nodes : List EmbeddingNode} {path more : List String}
    {key : Option String} {error : EmbedError} (h : get? nodes path = some (failed key error))
    (hmore : more ≠ []) : get? nodes (path ++ more) = none := by
  obtain ⟨after, more, rfl⟩ := List.exists_cons_of_ne_nil hmore
  induction path generalizing nodes with
  | nil => cases h
  | cons first path ih =>
    cases path with
    | nil =>
      rw [get?] at h
      rw [List.cons_append, List.nil_append, get?_cons_cons, h]
    | cons next path =>
      rw [get?_cons_cons] at h
      rw [List.cons_append, List.cons_append, get?_cons_cons]
      split at h
      · exact ih h
      · cases h
      · cases h

end EmbeddingNode

namespace EmbeddingArena

/-! ### Looking up by numbers -/

/-- The key of the part with a number, if it has one. -/
def keyOf? (a : EmbeddingArena) (id : Nat) : Option String := a.nodes[id]?.bind Node.key?

/-- The number of the first of some parts that has a key. -/
def firstId? (a : EmbeddingArena) (ids : List Nat) (key : String) : Option Nat :=
  ids.find? (a.keyOf? · == some key)

/-- The number of the part that a path of keys leads to: the first one with the last key, among the
children of the table that the keys before it lead to. -/
def idAt? (a : EmbeddingArena) (ids : List Nat) (path : List String) : Option Nat := do
  let last ← path.getLast?
  let children ← a.childIds? ids path.dropLast
  a.firstId? children last

/-- The parts side by side under a part, or under the root. -/
abbrev siblings (a : EmbeddingArena) : Option Nat → List Nat := listUnder a.childrenOf a.children

/-- The part `d` stands before `id` under the same part. -/
def Precedes (a : EmbeddingArena) (d id : Nat) : Prop :=
  ∃ parent, [d, id].Sublist (a.siblings parent)

/-- A part on the way has the key of an earlier one beside it. -/
def Shadowed (a : EmbeddingArena) (way : List Nat) : Prop :=
  ∃ id ∈ way, ∃ d, a.Precedes d id ∧ a.keyOf? d = a.keyOf? id

/-- A way down from some parts to the part with the number `id`, and the keys on it. -/
structure HasPath (a : EmbeddingArena) (ids : List Nat) (id : Nat) (way : List Nat)
    (path : List String) : Prop where
  down : WayDown a.childrenOf ids way
  last : way.getLast? = some id
  keys : way.map a.keyOf? = path.map some

/-- The part with a number, with all that is in it, which is in the row before it. -/
def Stands (a : EmbeddingArena) (id : Nat) (node : EmbeddingNode) : Prop :=
  ∃ front back, a.nodes = front ++ node.flatten front.length ++ back ∧
    id + 1 = front.length + node.size

variable (a : EmbeddingArena) {id d : Nat} {ids way : List Nat} {key : String} {path : List String}

theorem keyOf?_of_firstId? (h : a.firstId? ids key = some id) : a.keyOf? id = some key := by
  simpa using List.find?_some h

theorem find?_eq (ids : List Nat) (key : String) :
    a.find? ids key = (a.firstId? ids key).bind (a.nodes[·]?) := by
  have hkey (id : Nat) :
      (a.nodes[id]?).any (·.key? == some key) = (a.keyOf? id == some key) := by
    unfold keyOf?
    cases a.nodes[id]? <;> rfl
  simp only [find?, List.find?_filterMap, hkey, firstId?]

theorem childrenOf_of_getElem? {part : Node} (h : a.nodes[id]? = some part) :
    a.childrenOf id = part.children := by
  simp [childrenIn, h]

theorem idAt?_singleton (ids : List Nat) (key : String) : a.idAt? ids [key] = a.firstId? ids key :=
  rfl

/-- Nothing is found where there is nothing. -/
theorem idAt?_of_nil (path : List String) : a.idAt? [] path = none := by
  match path with
  | [] => rfl
  | [key] => rfl
  | key :: next :: path => rfl

/-- Under its first key a path goes on among the children of the part that is found there; there are
none if the part is an error. -/
theorem idAt?_cons_cons (ids : List Nat) (key next : String) (path : List String) :
    a.idAt? ids (key :: next :: path) =
      (a.firstId? ids key).bind fun id => a.idAt? (a.childrenOf id) (next :: path) := by
  simp only [idAt?, List.getLast?_cons_cons, List.dropLast_cons_cons, childIds?, find?_eq]
  cases hfirst : a.firstId? ids key with
  | none => simp
  | some id =>
    obtain ⟨part, hpart, -⟩ := Option.bind_eq_some_iff.1 (a.keyOf?_of_firstId? hfirst)
    simp only [Option.bind_some, hpart, a.childrenOf_of_getElem? hpart]
    cases part with
    | resolved e children => rfl
    | failed failedKey error =>
      refine Eq.trans ?_ (a.idAt?_of_nil (next :: path)).symm
      simp

/-! ### Ways down -/

variable {a}

namespace IsForest

theorem nodup (h : a.IsForest) : (a.children ++ a.nodes.flatMap Node.children).Nodup :=
  h.once.nodup_iff.2 List.nodup_range

/-- Among the parts under one part, those before another one are its earlier siblings. -/
theorem precedes_iff (h : a.IsForest) {parent : Option Nat} (hid : id ∈ a.siblings parent) :
    a.Precedes d id ↔ [d, id].Sublist (a.siblings parent) := by
  constructor
  · rintro ⟨parent', hsublist⟩
    have hid' : id ∈ a.siblings parent' := hsublist.subset (by simp)
    rwa [listUnder_unique h.nodup hid hid']
  · intro hsublist
    exact ⟨parent, hsublist⟩

/-- One way from the root at most leads to a part. -/
theorem way_unique (h : a.IsForest) {way' : List Nat} {path' : List String}
    (hpath : a.HasPath a.children id way path) (hpath' : a.HasPath a.children id way' path') :
    way = way' :=
  hpath.down.unique (fun _ _ _ => listUnder_unique h.nodup) hpath'.down
    (hpath.last.trans hpath'.last.symm)

end IsForest

theorem not_hasPath_nil : ¬a.HasPath ids id way [] := by
  rintro ⟨-, hlast, hkeys⟩
  obtain rfl : way = [] := by simpa using hkeys
  cases hlast

theorem hasPath_singleton_iff :
    a.HasPath ids id way [key] ↔ way = [id] ∧ id ∈ ids ∧ a.keyOf? id = some key := by
  constructor
  · rintro ⟨hway, hlast, hkeys⟩
    obtain ⟨first, rest, rfl, hkey, hrest⟩ := List.map_eq_cons_iff.1 hkeys
    obtain rfl : rest = [] := by simpa using hrest
    obtain rfl : first = id := by simpa using hlast
    exact ⟨rfl, (wayDown_cons_iff.1 hway).1, hkey⟩
  · rintro ⟨rfl, hid, hkey⟩
    exact ⟨.cons hid .nil, rfl, by simp [hkey]⟩

/-- A path of several keys goes on below a part that has the first one. -/
theorem hasPath_cons_cons_iff {next : String} :
    a.HasPath ids id way (key :: next :: path) ↔
      ∃ first rest, way = first :: rest ∧ first ∈ ids ∧ a.keyOf? first = some key ∧
        a.HasPath (a.childrenOf first) id rest (next :: path) := by
  constructor
  · rintro ⟨hway, hlast, hkeys⟩
    obtain ⟨first, rest, rfl, hkey, hrest⟩ := List.map_eq_cons_iff.1 hkeys
    obtain ⟨second, more, rfl, -, -⟩ := List.map_eq_cons_iff.1 hrest
    obtain ⟨hfirst, hway⟩ := wayDown_cons_iff.1 hway
    exact ⟨first, _, rfl, hfirst, hkey, hway, by simpa using hlast, hrest⟩
  · rintro ⟨first, rest, rfl, hfirst, hkey, hway, hlast, hkeys⟩
    exact ⟨.cons hfirst hway, by simp [List.getLast?_cons, hlast], by simpa [hkey] using hkeys⟩

/-- The parts on a way to a part with a key have keys, for an error is the last on any way. -/
theorem exists_hasPath (h : WayDown a.childrenOf ids way) (hlast : way.getLast? = some id)
    (hkey : a.keyOf? id = some key) : ∃ path, a.HasPath ids id way path := by
  induction h with
  | nil => cases hlast
  | @cons first ids way hfirst hway ih =>
    cases way with
    | nil =>
      obtain rfl : first = id := by simpa using hlast
      exact ⟨[key], .cons hfirst .nil, hlast, by simp [hkey]⟩
    | cons next way =>
      obtain ⟨path, -, -, hkeys⟩ := ih (by simpa using hlast)
      obtain ⟨part, hpart, hnext⟩ := mem_childrenIn_iff.1 (wayDown_cons_iff.1 hway).1
      cases part with
      | resolved e children =>
        refine ⟨e.key :: path, .cons hfirst hway, hlast, ?_⟩
        simpa [keyOf?, hpart, Node.key?] using hkeys
      | failed failedKey error => cases hnext

/-- A part with a key has one path of keys. -/
theorem IsForest.exists_path (h : a.IsForest) (hkey : a.keyOf? id = some key) :
    ∃ way path, a.HasPath a.children id way path ∧
      ∀ way' path', a.HasPath a.children id way' path' → way' = way ∧ path' = path := by
  have hid : id < a.nodes.length := by
    by_contra hge
    rw [keyOf?, List.getElem?_eq_none (Nat.le_of_not_lt hge)] at hkey
    cases hkey
  obtain ⟨way, hway, hlast⟩ := h.postOrder.exists_way (List.mem_range.2 hid)
  obtain ⟨path, hpath⟩ := exists_hasPath hway hlast hkey
  refine ⟨way, path, hpath, fun way' path' hpath' => ?_⟩
  obtain rfl : way' = way := h.way_unique hpath' hpath
  have hkeys : path'.map some = path.map some := hpath'.keys.symm.trans hpath.keys
  exact ⟨rfl, List.map_injective_iff.2 (fun _ _ => Option.some.inj) hkeys⟩

/-! ### What a path finds -/

/-- In a list without duplicates the first one of a kind is the one that none of its kind stands
before. -/
theorem find?_eq_some_iff_sublist {l : List Nat} (h : l.Nodup) {p : Nat → Bool} :
    l.find? p = some id ↔ id ∈ l ∧ p id = true ∧ ∀ d, [d, id].Sublist l → p d = false := by
  induction l with
  | nil => simp
  | cons first l ih =>
    obtain ⟨hfirst, hl⟩ := List.nodup_cons.1 h
    have hsublist (d : Nat) (hid : id ∈ l) :
        [d, id].Sublist (first :: l) ↔ [d, id].Sublist l ∨ d = first := by
      rw [List.cons_sublist_cons', List.singleton_sublist, and_iff_left hid]
    cases hp : p first with
    | true =>
      rw [List.find?_cons_of_pos hp, Option.some_inj]
      constructor
      · rintro rfl
        refine ⟨List.mem_cons_self, hp, fun d hd => (hfirst ?_).elim⟩
        rw [List.cons_sublist_cons', List.singleton_sublist] at hd
        exact hd.elim (fun hd => hd.subset (by simp)) And.right
      · rintro ⟨hid, -, hbefore⟩
        rcases List.mem_cons.1 hid with rfl | hid
        · rfl
        · cases hp.symm.trans (hbefore first ((hsublist first hid).2 (Or.inr rfl)))
    | false =>
      rw [List.find?_cons_of_neg (by simp [hp]), ih hl]
      constructor
      · rintro ⟨hid, hpid, hbefore⟩
        refine ⟨List.mem_cons_of_mem _ hid, hpid, fun d hd => ?_⟩
        rcases (hsublist d hid).1 hd with hd | rfl
        · exact hbefore d hd
        · exact hp
      · rintro ⟨hid, hpid, hbefore⟩
        rcases List.mem_cons.1 hid with rfl | hid
        · cases hp.symm.trans hpid
        · exact ⟨hid, hpid, fun d hd => hbefore d ((hsublist d hid).2 (Or.inl hd))⟩

/-- The first part with a key is the one that has no earlier sibling with its key. -/
theorem IsForest.firstId?_eq_some_iff (h : a.IsForest) {parent : Option Nat} :
    a.firstId? (a.siblings parent) key = some id ↔
      id ∈ a.siblings parent ∧ a.keyOf? id = some key ∧
        ∀ d, a.Precedes d id → a.keyOf? d ≠ a.keyOf? id := by
  rw [firstId?, find?_eq_some_iff_sublist (nodup_listUnder h.nodup parent)]
  simp only [beq_iff_eq, beq_eq_false_iff_ne]
  refine and_congr_right fun hid => and_congr_right fun hkey => forall_congr' fun d => ?_
  rw [h.precedes_iff hid, hkey]

theorem not_shadowed_nil : ¬a.Shadowed [] := by
  simp [Shadowed]

theorem not_shadowed_cons_iff :
    ¬a.Shadowed (id :: way) ↔
      (∀ d, a.Precedes d id → a.keyOf? d ≠ a.keyOf? id) ∧ ¬a.Shadowed way := by
  simp [Shadowed]

/-- Down from the parts under one part, a path finds what it is the path of and what is not
shadowed. -/
theorem IsForest.idAt?_siblings_iff (h : a.IsForest) (parent : Option Nat) :
    a.idAt? (a.siblings parent) path = some id ↔
      ∃ way, a.HasPath (a.siblings parent) id way path ∧ ¬a.Shadowed way := by
  induction path generalizing parent with
  | nil => exact iff_of_false nofun fun ⟨_, hpath, _⟩ => not_hasPath_nil hpath
  | cons key path ih =>
    cases path with
    | nil =>
      rw [idAt?_singleton, h.firstId?_eq_some_iff]
      constructor
      · rintro ⟨hid, hkey, hfirst⟩
        exact ⟨[id], hasPath_singleton_iff.2 ⟨rfl, hid, hkey⟩,
          not_shadowed_cons_iff.2 ⟨hfirst, not_shadowed_nil⟩⟩
      · rintro ⟨way, hpath, hclear⟩
        obtain ⟨rfl, hid, hkey⟩ := hasPath_singleton_iff.1 hpath
        exact ⟨hid, hkey, (not_shadowed_cons_iff.1 hclear).1⟩
    | cons next path =>
      rw [idAt?_cons_cons, Option.bind_eq_some_iff]
      -- What is below the part with the first key is again all that is under one part.
      have hbelow (first : Nat) := ih (some first)
      constructor
      · rintro ⟨first, hfound, hid⟩
        obtain ⟨hfirst, hkey, hahead⟩ := h.firstId?_eq_some_iff.1 hfound
        obtain ⟨rest, hpath, hclear⟩ := (hbelow first).1 hid
        exact ⟨first :: rest, hasPath_cons_cons_iff.2 ⟨first, rest, rfl, hfirst, hkey, hpath⟩,
          not_shadowed_cons_iff.2 ⟨hahead, hclear⟩⟩
      · rintro ⟨way, hpath, hclear⟩
        obtain ⟨first, rest, rfl, hfirst, hkey, hpath⟩ := hasPath_cons_cons_iff.1 hpath
        obtain ⟨hahead, hclear⟩ := not_shadowed_cons_iff.1 hclear
        exact ⟨first, h.firstId?_eq_some_iff.2 ⟨hfirst, hkey, hahead⟩,
          (hbelow first).2 ⟨rest, hpath, hclear⟩⟩

/-- A path finds the parts that it is the path of and that are not shadowed. -/
theorem IsForest.idAt?_eq_some_iff (h : a.IsForest) :
    a.idAt? a.children path = some id ↔
      ∃ way, a.HasPath a.children id way path ∧ ¬a.Shadowed way :=
  h.idAt?_siblings_iff none

/-! ### Nested parts and their numbers -/

/-- Parts that are numbered in a row stand under their numbers. -/
theorem forall₂_stands (front : List Node) {back : List Node} {nodes : List EmbeddingNode}
    (hnodes : a.nodes = front ++ (flattenNodes front.length nodes).2 ++ back) :
    List.Forall₂ a.Stands (flattenNodes front.length nodes).1 nodes := by
  induction nodes generalizing front with
  | nil => exact .nil
  | cons node nodes ih =>
    rw [flattenNodes_cons] at hnodes ⊢
    have hpos := node.size_pos
    refine .cons ⟨front, _, by simpa using hnodes, by omega⟩ ?_
    have hmore := ih (front ++ node.flatten front.length)
    rw [List.length_append, node.length_flatten] at hmore
    exact hmore (by simpa using hnodes)

/-- A table that stands under a number is there, and its children stand under theirs. -/
theorem Stands.resolved {e : Embedding} {children : List EmbeddingNode}
    (h : a.Stands id (.resolved e children)) :
    ∃ ids, a.nodes[id]? = some (.resolved e ids) ∧ List.Forall₂ a.Stands ids children := by
  obtain ⟨front, back, hnodes, hid⟩ := h
  rw [EmbeddingNode.flatten_resolved] at hnodes
  have hchildren : a.nodes = front ++ (flattenNodes front.length children).2 ++
      .resolved e (flattenNodes front.length children).1 :: back := by
    simpa using hnodes
  refine ⟨(flattenNodes front.length children).1, ?_, forall₂_stands front hchildren⟩
  obtain rfl : id = (front ++ (flattenNodes front.length children).2).length := by
    rw [List.length_append, length_flattenNodes]
    simpa [EmbeddingNode.size, ← Nat.add_assoc] using hid
  rw [hchildren, List.getElem?_append_right (Nat.le_refl _), Nat.sub_self]
  rfl

theorem Stands.failed {failedKey : Option String} {error : EmbedError}
    (h : a.Stands id (.failed failedKey error)) :
    a.nodes[id]? = some (.failed failedKey error) := by
  obtain ⟨front, back, hnodes, hid⟩ := h
  obtain rfl : id = front.length := by simpa [EmbeddingNode.size] using hid
  rw [hnodes]
  simp [EmbeddingNode.flatten]

theorem Stands.keyOf? {node : EmbeddingNode} (h : a.Stands id node) : a.keyOf? id = node.key? := by
  cases node with
  | resolved e children =>
    obtain ⟨ids, hpart, -⟩ := h.resolved
    simp [EmbeddingArena.keyOf?, hpart, Node.key?, EmbeddingNode.key?]
  | failed failedKey error =>
    simp [EmbeddingArena.keyOf?, h.failed, Node.key?, EmbeddingNode.key?]

/-- Under a key the same part is found by numbers and in the nested tree. -/
theorem rel_find? {nodes : List EmbeddingNode} (h : List.Forall₂ a.Stands ids nodes)
    (key : String) :
    Option.Rel a.Stands (a.firstId? ids key) (EmbeddingNode.find? nodes key) := by
  unfold firstId? EmbeddingNode.find?
  induction h with
  | nil => exact .none
  | cons hnode _ ih =>
    rw [List.find?_cons, List.find?_cons, hnode.keyOf?]
    split
    · exact .some hnode
    · exact ih

/-- A path finds the same part by numbers and in the nested tree. -/
theorem rel_get? {nodes : List EmbeddingNode} (h : List.Forall₂ a.Stands ids nodes)
    (path : List String) :
    Option.Rel a.Stands (a.idAt? ids path) (EmbeddingNode.get? nodes path) := by
  induction path generalizing ids nodes with
  | nil => exact .none
  | cons key path ih =>
    have hfirst := rel_find? h key
    cases path with
    | nil => exact hfirst
    | cons next path =>
      rw [idAt?_cons_cons, EmbeddingNode.get?_cons_cons]
      generalize a.firstId? ids key = found, EmbeddingNode.find? nodes key = part at hfirst ⊢
      cases hfirst with
      | none => exact .none
      | @some id node hnode =>
        cases node with
        | resolved e children =>
          obtain ⟨ids, hpart, hchildren⟩ := hnode.resolved
          rw [Option.bind_some, a.childrenOf_of_getElem? hpart]
          exact ih hchildren
        | failed failedKey error =>
          rw [Option.bind_some, a.childrenOf_of_getElem? hnode.failed]
          exact (a.idAt?_of_nil (next :: path)).symm ▸ .none

end EmbeddingArena

open EmbeddingArena

theorem EmbeddingTree.rel_get? (t : EmbeddingTree) (path : List String) :
    Option.Rel t.arena.Stands (t.arena.idAt? t.arena.children path) (t.get? path) := by
  have hnodes : t.arena.nodes = [] ++ (flattenNodes 0 t.children).2 ++ [] := by
    rw [List.append_nil]
    rfl
  exact EmbeddingArena.rel_get? (forall₂_stands [] hnodes) path

/-! ### What could not be read -/

/-- What could not be read has no key, and every other error has one, in the part and all that is in
it. -/
inductive EmbeddingNode.Keyed : EmbeddingNode → Prop
  | resolved {e : Embedding} {children : List EmbeddingNode}
      (hchildren : ∀ node ∈ children, Keyed node) : Keyed (.resolved e children)
  | unread (error : ParseError) : Keyed (.failed none (.parse error))
  | failed {error : EmbedError} (key : String) (herror : ∀ e, error ≠ .parse e) :
      Keyed (.failed (some key) error)

/-- A path does not lead to what could not be read. -/
theorem EmbeddingNode.error?_get?_ne {nodes : List EmbeddingNode} {path : List String}
    {node : EmbeddingNode} (h : ∀ node ∈ nodes, node.Keyed) (hnode : get? nodes path = some node)
    (error : ParseError) : node.error? ≠ some (.parse error) := by
  induction path generalizing nodes with
  | nil => cases hnode
  | cons key path ih =>
    cases path with
    | nil =>
      have hkey : node.key? = some key := by simpa using List.find?_some hnode
      cases h node (List.mem_of_find?_eq_some hnode) with
      | resolved => nofun
      | unread => cases hkey
      | failed key herror => exact fun heq => herror error (Option.some.inj heq)
    | cons next path =>
      rw [get?_cons_cons] at hnode
      split at hnode
      · next e children hfind =>
        cases h _ (List.mem_of_find?_eq_some hfind) with
        | resolved hchildren => exact ih hchildren hnode
      · cases hnode
      · cases hnode

namespace Resolver

variable (r : Resolver) {table : Table}

theorem embed_keyed (resource : Resource) {select : Table → Selection}
    (hselect : ∀ target, ∀ node ∈ (select target).children, node.Keyed) :
    (r.embed table resource select).Keyed := by
  rcases r.embed_cases table resource with ⟨error, -, hembed⟩ | ⟨found, target, -, -, hembed⟩
  · rw [hembed]
    exact .failed _ nofun
  · rw [hembed]
    exact .resolved (hselect target)

theorem selectColumn_keyed (column : ColumnRef) :
    ∀ node ∈ (r.selectColumn table column).children, node.Keyed := by
  unfold selectColumn
  split
  · exact List.forall_mem_singleton.2 (r.embed_keyed _ fun _ => nofun)
  · split
    · exact List.forall_mem_singleton.2 (.failed _ nofun)
    · exact nofun

mutual

theorem selectItem_keyed (r : Resolver) : ∀ (item : SelectItem) (table : Table),
    ∀ node ∈ (r.selectItem table item).children, node.Keyed
  | .wildcard _, _ | .count .., _ => nofun
  | .column column, _ => r.selectColumn_keyed column
  | .bare resource, _ => List.forall_mem_singleton.2 (r.embed_keyed resource fun _ => nofun)
  | .block resource items, _ =>
    List.forall_mem_singleton.2 (r.embed_keyed resource (selectList_keyed r items))
  | .invalid error _, _ => List.forall_mem_singleton.2 (.unread error)

/-- A list leaves no errors without a key but those of the items that could not be read. -/
theorem selectList_keyed (r : Resolver) : ∀ (items : List SelectItem) (table : Table),
    ∀ node ∈ (r.selectList table items).children, node.Keyed
  | [], _ => nofun
  | item :: items, table =>
    List.forall_mem_append.2 ⟨selectItem_keyed r item table, selectList_keyed r items table⟩

end

theorem keyed_of_resolve {root : String} {query : QueryTree} {t : EmbeddingTree}
    (h : r.resolve root query = .ok t) : ∀ node ∈ t.children, node.Keyed := by
  cases htable : r.catalog.table? root with
  | none =>
    rw [resolve, htable] at h
    cases h
  | some table =>
    obtain ⟨t', ht', hchildren⟩ := resolve_of_table htable query
    cases h.symm.trans ht'
    rw [hchildren, children_selectQuery]
    exact r.selectList_keyed query.items table

end Resolver

/-- Paths of keys lead to the parts of a tree that are not shadowed, and nowhere else. -/
structure EmbeddingTree.IsNavigable (t : EmbeddingTree) : Prop where
  /-- What a path leads to is the part with the number that it leads to. -/
  numbered : ∀ path,
    Option.Rel t.arena.Stands (t.arena.idAt? t.arena.children path) (t.get? path)
  /-- A part with a key has one path, and one way down to it. -/
  exists_path : ∀ id key, t.arena.keyOf? id = some key →
    ∃ way path, t.arena.HasPath t.arena.children id way path ∧
      ∀ way' path', t.arena.HasPath t.arena.children id way' path' → way' = way ∧ path' = path
  /-- The path of a part leads to it exactly if the part is not shadowed. -/
  idAt?_iff : ∀ id way path, t.arena.HasPath t.arena.children id way path →
    (t.arena.idAt? t.arena.children path = some id ↔ ¬t.arena.Shadowed way)
  /-- A path leads to parts only that it is the path of. -/
  hasPath : ∀ id path, t.arena.idAt? t.arena.children path = some id →
    ∃ way, t.arena.HasPath t.arena.children id way path
  /-- The empty path leads nowhere. -/
  empty : t.get? [] = none
  /-- No path leads on from an error. -/
  failed : ∀ path more key error, t.get? path = some (.failed key error) → more ≠ [] →
    t.get? (path ++ more) = none
  /-- No path leads to what could not be read. -/
  read : ∀ path node error, t.get? path = some node → node.error? ≠ some (.parse error)

/-- In the tree of a query, which is what the composer pushes, paths of keys lead to the parts that
are not shadowed, and nowhere else. -/
theorem Resolver.resolve_isNavigable (r : Resolver) {root : String} {query : QueryTree}
    {t : EmbeddingTree} (h : r.resolve root query = .ok t) :
    r.compose root query = .ok t.arena ∧ t.IsNavigable := by
  have hforest := t.isForest_arena
  refine ⟨by rw [compose_eq, h]; rfl, ?_⟩
  exact
    { numbered := t.rel_get?
      exists_path := fun _ _ => hforest.exists_path
      idAt?_iff := by
        intro id way path hpath
        rw [hforest.idAt?_eq_some_iff]
        constructor
        · rintro ⟨way', hpath', hclear⟩
          obtain rfl : way' = way := hforest.way_unique hpath' hpath
          exact hclear
        · intro hclear
          exact ⟨way, hpath, hclear⟩
      hasPath := by
        intro id path hid
        obtain ⟨way, hpath, -⟩ := hforest.idAt?_eq_some_iff.1 hid
        exact ⟨way, hpath⟩
      empty := rfl
      failed := fun _ _ _ _ => EmbeddingNode.get?_append_of_failed
      read := fun _ _ error hnode =>
        EmbeddingNode.error?_get?_ne (r.keyed_of_resolve h) hnode error }

/-- Tables of one key side by side and inside each other, an error with this key between them,
errors in both tables, and a list that is not closed. -/
theorem Resolver.resolve_isNavigable_staff :
    ∃ t, Resolver.resolve { catalog := .staff } "employees" (QueryTree.parse
        "employees!manager(rooms, employees!id(*)), employees:rooms, employees!id(heads), count(") =
          .ok t ∧
      Resolver.compose { catalog := .staff } "employees" (QueryTree.parse
        "employees!manager(rooms, employees!id(*)), employees:rooms, employees!id(heads), count(") =
          .ok t.arena ∧
      t.IsNavigable := by
  have htable : (Catalog.table? .staff "employees").isSome := rfl
  obtain ⟨table, htable⟩ := Option.isSome_iff_exists.1 htable
  obtain ⟨t, ht, -⟩ := Resolver.resolve_of_table (r := { catalog := .staff }) htable _
  exact ⟨t, ht, Resolver.resolve_isNavigable _ ht⟩

end EmbedQuery
