import EmbedQuery.Embedding.Resolve
import EmbedQuery.Proofs.Embedding.Numbering

/-!
# Putting numbered trees together

A numbered tree need not come from a nested one. The composer goes through a query item by item; a
part that is finished is pushed behind the others, which gives it its number, and the number goes
into the list of the table around it. No part is ever changed or taken back.

`Resolver.compose_eq`: what the composer has pushed in the end is the numbered tree of
`Resolver.resolve`. By induction on the query, a list that is composed pushes its parts behind
whatever is there, numbered from there on (`Resolver.composeList_eq`).
-/

namespace EmbedQuery

/-- Work that pushes parts behind those that are finished. -/
abbrev Composing := StateM (List EmbeddingArena.Node)

/-- Pushes a part. Its number is the number of parts before it. -/
def Composing.push (node : EmbeddingArena.Node) : Composing Nat :=
  modifyGet fun nodes => (nodes.length, nodes ++ [node])

/-- What an item becomes: fields of the table, or a part that is still to be pushed. -/
inductive Composed
  | fields (fields : List Field)
  | part (node : EmbeddingArena.Node)

/-- The fields and the numbers that an item adds to the table around it. -/
def Composed.enlist : Composed → Composing (List Field × List Nat)
  | .fields selected => return (selected, [])
  | .part node => return ([], [← Composing.push node])

namespace Resolver

/-- A resource on the table it names, found through a relationship. -/
def embedding (r : Resolver) (resource : Resource) (relationship : Relationship) (table : Table)
    (fields : List Field) : Embedding where
  key := resource.key
  table := table.name
  label := resource.label
  cardinality := relationship.cardinality
  nullable := r.mayBeMissing relationship resource.join
  join := resource.join
  relationship := some relationship
  fields := fields

/-- A resource whose relationship and table are found is embedded. -/
theorem embed_eq_resolved {r : Resolver} {parent target : Table} {resource : Resource}
    {found : Relationship}
    (hfound : r.relationship parent.name resource.name resource.hint = .ok found)
    (htarget : r.catalog.table? resource.name = some target) (select : Table → Selection) :
    r.embed parent resource select =
      .resolved (r.embedding resource found target (select target).fields)
        (select target).children := by
  rw [embed, hfound]
  simp only [htarget]
  rfl

/-- A resource whose relationship is not found is an error, whatever its list means. -/
theorem embed_eq_failed {r : Resolver} {parent : Table} {resource : Resource}
    {error : RelationshipError}
    (h : r.relationship parent.name resource.name resource.hint = .error error)
    (select : Table → Selection) :
    r.embed parent resource select = .failed (some resource.key) (.relationship error) := by
  rw [embed, h]

/-- Composes a resource in a table; `select` composes its list on the table it names. -/
def composeEmbed (r : Resolver) (parent : Table) (resource : Resource)
    (select : Table → Composing (List Field × List Nat)) : Composing Composed :=
  match r.relationship parent.name resource.name resource.hint with
  | .error error => return .part (.failed (some resource.key) (.relationship error))
  | .ok relationship =>
    match r.catalog.table? resource.name with
    | none => return .part (.failed (some resource.key) (.unknownTable resource.name))
    | some table => do
      let (fields, children) ← select table
      return .part (.resolved (r.embedding resource relationship table fields) children)

/-- A table without a list has all its columns and nothing embedded in it. -/
def composeAll (table : Table) : Composing (List Field × List Nat) :=
  return (table.allColumns.fields, [])

def composeColumn (r : Resolver) (table : Table) (c : ColumnRef) : Composing Composed :=
  if c.isPlain && r.isRelated table c.name then
    r.composeEmbed table c.toResource composeAll
  else
    match table.column? c.name with
    | none => return .part (.failed (some c.key) (.columnNotFound table.name c.name))
    | some source =>
      return .fields [⟨c.key, some c.name, c.cast, c.aggregate, source.nullableUnder c.aggregate⟩]

mutual

def composeItem (r : Resolver) (table : Table) : SelectItem → Composing Composed
  | .wildcard _ => return .fields table.allColumns.fields
  | .column c => r.composeColumn table c
  | .count label cast _ => return .fields [.count label cast]
  | .bare resource => r.composeEmbed table resource composeAll
  | .block resource items =>
    r.composeEmbed table resource fun target => composeList r target items
  | .invalid error _ => return .part (.failed none (.parse error))

def composeList (r : Resolver) (table : Table) :
    List SelectItem → Composing (List Field × List Nat)
  | [] => return ([], [])
  | item :: items => do
    let (fields, children) ← (← composeItem r table item).enlist
    let (moreFields, moreChildren) ← composeList r table items
    return (fields ++ moreFields, children ++ moreChildren)

end

/-- Composes a query on the table of that name, starting without parts. A query without items
selects every column. -/
def compose (r : Resolver) (root : String) (query : QueryTree) :
    Except EmbedError EmbeddingArena :=
  match r.catalog.table? root with
  | none => .error (.unknownTable root)
  | some table =>
    let select := if query.items.isEmpty then composeAll table else r.composeList table query.items
    let ((fields, children), nodes) := (select.run []).run
    .ok
      { root :=
          { key := root
            table := root
            cardinality := .toMany
            nullable := false
            fields := fields }
        children
        nodes }

end Resolver

/-! ### The parts of a selection -/

/-- Pushes all parts of a selection, numbered from the next number on. -/
def Selection.pushed (s : Selection) : Composing (List Field × List Nat) := fun nodes =>
  ((s.fields, (flattenNodes nodes.length s.children).1),
    nodes ++ (flattenNodes nodes.length s.children).2)

namespace Selection

theorem pushed_append (s t : Selection) :
    (s ++ t).pushed = do
      let (fields, children) ← s.pushed
      let (moreFields, moreChildren) ← t.pushed
      return (fields ++ moreFields, children ++ moreChildren) := by
  funext nodes
  have happend := flattenNodes_append nodes.length s.children t.children
  have hlength := length_flattenNodes nodes.length s.children
  show pushed (Selection.append s t) nodes =
    ((s.fields ++ t.fields, _ ++ _), (nodes ++ _) ++ _)
  rw [pushed, Selection.append, happend, List.length_append, hlength, List.append_assoc]

theorem pushed_fields (fields : List Field) :
    pushed ⟨fields, []⟩ = (Composed.fields fields).enlist := by
  funext nodes
  show ((fields, []), nodes ++ []) = ((fields, []), nodes)
  rw [List.append_nil]

/-- A table is pushed behind everything in it. -/
theorem pushed_resolved (embedding : List Field → Embedding) (s : Selection) :
    (ofNode (.resolved (embedding s.fields) s.children)).pushed =
      s.pushed >>= fun (fields, children) =>
        (Composed.part (.resolved (embedding fields) children)).enlist := by
  funext nodes
  have hlength := length_flattenNodes nodes.length s.children
  show (([], [nodes.length + (_ ++ [_]).length - 1]), nodes ++ ((_ ++ [_]) ++ [])) =
    (([], [(nodes ++ _).length]), (nodes ++ _) ++ [_])
  simp [hlength]

end Selection

namespace Resolver

/-! ### Item by item -/

theorem composeEmbed_eq (r : Resolver) (parent : Table) (resource : Resource)
    {select : Table → Composing (List Field × List Nat)} {selection : Table → Selection}
    (hselect : ∀ target, select target = (selection target).pushed) :
    (do (← r.composeEmbed parent resource select).enlist) =
      (Selection.ofNode (r.embed parent resource selection)).pushed := by
  unfold composeEmbed embed
  cases r.relationship parent.name resource.name resource.hint with
  | error error => rfl
  | ok relationship =>
    cases r.catalog.table? resource.name with
    | none => rfl
    | some table =>
      simp only [hselect]
      exact (Selection.pushed_resolved (r.embedding resource relationship table) _).symm

theorem composeAll_eq (table : Table) : composeAll table = table.allColumns.pushed :=
  (Selection.pushed_fields table.allColumns.fields).symm

theorem composeColumn_eq (r : Resolver) (table : Table) (c : ColumnRef) :
    (do (← r.composeColumn table c).enlist) = (r.selectColumn table c).pushed := by
  unfold composeColumn selectColumn
  split
  · exact r.composeEmbed_eq table c.toResource composeAll_eq
  · cases table.column? c.name with
    | none => rfl
    | some source => exact (Selection.pushed_fields [_]).symm

mutual

theorem composeItem_eq (r : Resolver) (table : Table) : ∀ item : SelectItem,
    (do (← r.composeItem table item).enlist) = (r.selectItem table item).pushed
  | .wildcard _ => by
    rw [composeItem, selectItem]
    exact composeAll_eq table
  | .column c => by
    rw [composeItem, selectItem]
    exact r.composeColumn_eq table c
  | .count label cast _ => by
    rw [composeItem, selectItem]
    exact (Selection.pushed_fields [_]).symm
  | .bare resource => by
    rw [composeItem, selectItem]
    exact r.composeEmbed_eq table resource composeAll_eq
  | .block resource items => by
    rw [composeItem, selectItem]
    exact r.composeEmbed_eq table resource fun target => composeList_eq r target items
  | .invalid error _ => by
    rw [composeItem, selectItem]
    rfl

/-- A list pushes its parts behind those that are there, numbered from there on. -/
theorem composeList_eq (r : Resolver) (table : Table) : ∀ items : List SelectItem,
    r.composeList table items = (r.selectList table items).pushed
  | [] => by
    rw [composeList, selectList]
    exact (Selection.pushed_fields []).symm
  | item :: items => by
    have hitem := composeItem_eq r table item
    have hitems := composeList_eq r table items
    rw [composeList, selectList, Selection.pushed_append, ← hitem, ← hitems]
    rfl

end

/-- The composer ends with the numbered tree of the query. -/
theorem compose_eq (r : Resolver) (root : String) (query : QueryTree) :
    r.compose root query = (r.resolve root query).map EmbeddingTree.arena := by
  obtain ⟨items⟩ := query
  unfold compose resolve
  cases r.catalog.table? root with
  | none => rfl
  | some table =>
    cases items with
    | nil => rfl
    | cons item items =>
      simp only [List.isEmpty_cons, composeList_eq]
      rfl

end Resolver

end EmbedQuery
