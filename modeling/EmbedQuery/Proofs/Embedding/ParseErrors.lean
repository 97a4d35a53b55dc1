import EmbedQuery.Proofs.Embedding.Forest
import EmbedQuery.Proofs.Query.Numbering

/-!
# Parse errors in resolved trees

An item that could not be read is an error in the resolved tree too, in its place among the others.
Only a resource around it can take it away: where no way or no single way leads to the table that
the resource names, the resource is an error itself and nothing is told of its list.

So every parse error is listed with the resources of the blocks that it lies in (`errorsWithin`).
A walk over the numbered query finds this list (`Arena.collects_arena`), and the parse errors of the
resolved tree are those of the list whose blocks lead on from the root, one inside the other
(`Catalog.LeadsOn`), in the same order: `Resolver.resolveText_parseErrors`.
-/

namespace EmbedQuery

namespace EmbedError

/-- The parse error, if it is one. -/
def parse? : EmbedError → Option ParseError
  | parse error => some error
  | unknownTable _ | relationship _ | columnNotFound .. => none

/-- Whether a table or the way to it was not found, and not an item or a column. -/
def isOfEmbedding : EmbedError → Bool
  | unknownTable _ | relationship _ => true
  | parse _ | columnNotFound .. => false

end EmbedError

/-! ### Errors and the blocks around them -/

/-- Errors, each with the resources of the blocks it lies in, the outermost first. -/
abbrev ErrorsWithin := List (List Resource × ParseError)

/-- The errors when the list they are in is that of a block. -/
def ErrorsWithin.inside (resource : Resource) (found : ErrorsWithin) : ErrorsWithin :=
  found.map fun (path, error) => (resource :: path, error)

mutual

/-- The errors of an item, in query order, with the blocks around them. -/
def SelectItem.errorsWithin : SelectItem → ErrorsWithin
  | .wildcard _ | .column _ | .count .. | .bare _ => []
  | .block resource items => (listErrorsWithin items).inside resource
  | .invalid error _ => [([], error)]

/-- The errors of a list, in query order, with the blocks around them. -/
def listErrorsWithin : List SelectItem → ErrorsWithin
  | [] => []
  | item :: items => item.errorsWithin ++ listErrorsWithin items

end

def QueryTree.errorsWithin (t : QueryTree) : ErrorsWithin := listErrorsWithin t.items

mutual

theorem SelectItem.map_snd_errorsWithin : ∀ item : SelectItem,
    item.errorsWithin.map Prod.snd = item.errors
  | .wildcard _ | .column _ | .count .. | .bare _ | .invalid .. => rfl
  | .block resource items => by
    have hitems := map_snd_listErrorsWithin items
    rw [SelectItem.errorsWithin, ErrorsWithin.inside, List.map_map, SelectItem.errors, ← hitems]
    rfl

/-- Without their blocks, the errors are those of the list. -/
theorem map_snd_listErrorsWithin : ∀ items : List SelectItem,
    (listErrorsWithin items).map Prod.snd = listErrors items
  | [] => rfl
  | item :: items => by
    have hitem := item.map_snd_errorsWithin
    have hitems := map_snd_listErrorsWithin items
    rw [listErrorsWithin, List.map_append, hitem, hitems, listErrors]

end

theorem QueryTree.map_snd_errorsWithin (t : QueryTree) : t.errorsWithin.map Prod.snd = t.errors :=
  map_snd_listErrorsWithin t.items

/-! ### The walk over a numbered query -/

namespace Arena

/-- A walk from some items into the lists of the resources they refer to, which gathers the errors
on its way and keeps in mind the resources it is in. -/
inductive Collects (nodes : List Node) : List Item → ErrorsWithin → Prop
  | nil : Collects nodes [] []
  | skip {item : Item} {items : List Item} {found : ErrorsWithin} (hid : item.id? = none)
      (herror : ∀ error, item ≠ .invalid error) (hmore : Collects nodes items found) :
      Collects nodes (item :: items) found
  | invalid (error : ParseError) {items : List Item} {found : ErrorsWithin}
      (hmore : Collects nodes items found) :
      Collects nodes (.invalid error :: items) (([], error) :: found)
  | embed {id : Nat} {node : Node} {items : List Item} {inner more : ErrorsWithin}
      (hnode : nodes[id]? = some node) (hinner : Collects nodes (node.select.getD []) inner)
      (hmore : Collects nodes items more) :
      Collects nodes (.embed id :: items) (inner.inside node.resource ++ more)

theorem Collects.append {nodes : List Node} {items items' : List Item} {found found' : ErrorsWithin}
    (h : Collects nodes items found) (h' : Collects nodes items' found') :
    Collects nodes (items ++ items') (found ++ found') := by
  induction h with
  | nil => exact h'
  | skip hid herror _ ih => exact .skip hid herror ih
  | invalid error _ ih => exact .invalid error ih
  | embed hnode hinner _ _ ih =>
    rw [List.append_assoc]
    exact .embed hnode hinner ih

mutual

theorem collects_flatten : ∀ (front back : List Node) (item : SelectItem),
    Collects (front ++ (item.flatten front.length).2 ++ back) [(item.flatten front.length).1]
      item.errorsWithin
  | _, _, .wildcard _ => .skip rfl (by rintro _ ⟨⟩) .nil
  | _, _, .column _ => .skip rfl (by rintro _ ⟨⟩) .nil
  | _, _, .count .. => .skip rfl (by rintro _ ⟨⟩) .nil
  | front, back, .bare resource => by
    have hnode : (front ++ [⟨resource, none⟩] ++ back)[front.length]? = some ⟨resource, none⟩ := by
      simp
    exact .embed hnode .nil .nil
  | front, back, .block resource items => by
    let node : Node := ⟨resource, some (flattenList front.length items).1⟩
    have hitems := collects_flattenList front (node :: back) items
    have hnodes : front ++ ((SelectItem.block resource items).flatten front.length).2 ++ back =
        front ++ (flattenList front.length items).2 ++ node :: back := by
      simp [SelectItem.flatten_block, node]
    have hnode : (front ++ (flattenList front.length items).2 ++ node :: back)[
        front.length + (flattenList front.length items).2.length]? = some node := by
      simp
    rw [hnodes, SelectItem.errorsWithin, ← List.append_nil (ErrorsWithin.inside _ _)]
    exact .embed hnode hitems .nil
  | front, back, .invalid error discarded => .invalid error .nil

/-- The walk finds the errors of a list among any others; what an error discarded has numbers too,
which it does not come to. -/
theorem collects_flattenList : ∀ (front back : List Node) (items : List SelectItem),
    Collects (front ++ (flattenList front.length items).2 ++ back)
      (flattenList front.length items).1 (listErrorsWithin items)
  | _, _, [] => .nil
  | front, back, item :: items => by
    have hitem := collects_flatten front
      ((flattenList (front.length + (item.flatten front.length).2.length) items).2 ++ back) item
    have hitems := collects_flattenList (front ++ (item.flatten front.length).2) back items
    rw [List.length_append] at hitems
    rw [flattenList_cons, listErrorsWithin]
    simp only [List.append_assoc] at hitem hitems ⊢
    exact hitem.append hitems

end

/-- The walk over a numbered query finds the errors of the query with the blocks around them. -/
theorem collects_arena (t : QueryTree) :
    Collects t.arena.nodes t.arena.items t.errorsWithin := by
  have hwalk := collects_flattenList [] [] t.items
  rw [List.append_nil] at hwalk
  exact hwalk

end Arena

/-! ### Resources that lead on -/

/-- From the table of that name the resources lead on, one inside the other: to each there is one
way that its hint leaves. -/
def Catalog.LeadsOn (c : Catalog) : String → List Resource → Prop
  | _, [] => True
  | parent, resource :: path =>
    (c.fitting parent resource.name resource.hint).length = 1 ∧ c.LeadsOn resource.name path

instance Catalog.decidableLeadsOn (c : Catalog) :
    (parent : String) → (path : List Resource) → Decidable (c.LeadsOn parent path)
  | _, [] => .isTrue trivial
  | _, resource :: path =>
    have : Decidable (c.LeadsOn resource.name path) := c.decidableLeadsOn resource.name path
    inferInstanceAs (Decidable (_ = _ ∧ _))

/-- The errors in blocks that lead on from the table of that name. -/
def ErrorsWithin.reachedFrom (c : Catalog) (parent : String) (found : ErrorsWithin) :
    List ParseError :=
  (found.filter fun (path, _) => c.LeadsOn parent path).map Prod.snd

namespace ErrorsWithin

variable {c : Catalog} {parent : String} {found : ErrorsWithin}

theorem reachedFrom_append (c : Catalog) (parent : String) (found found' : ErrorsWithin) :
    reachedFrom c parent (found ++ found') =
      found.reachedFrom c parent ++ found'.reachedFrom c parent := by
  rw [reachedFrom, List.filter_append, List.map_append]
  rfl

/-- Where the blocks of all errors lead on, all errors are reached. -/
theorem reachedFrom_of_forall (h : ∀ x ∈ found, c.LeadsOn parent x.1) :
    found.reachedFrom c parent = found.map Prod.snd := by
  have hall : ∀ x ∈ found, decide (c.LeadsOn parent x.1) = true :=
    fun x hx => decide_eq_true (h x hx)
  exact congrArg _ (List.filter_eq_self.2 hall)

/-- A block with one way to its table leaves its errors to be reached from there. -/
theorem reachedFrom_inside {resource : Resource}
    (h : (c.fitting parent resource.name resource.hint).length = 1) :
    (found.inside resource).reachedFrom c parent = found.reachedFrom c resource.name := by
  rw [reachedFrom, inside, List.filter_map, List.map_map, reachedFrom]
  refine congrArg _ (List.filter_congr fun x _ => ?_)
  simp [Catalog.LeadsOn, h]

/-- A block without a way to its table, or with several, hides its errors. -/
theorem reachedFrom_inside_of_ne {resource : Resource}
    (h : (c.fitting parent resource.name resource.hint).length ≠ 1) :
    (found.inside resource).reachedFrom c parent = [] := by
  rw [reachedFrom, List.map_eq_nil_iff, List.filter_eq_nil_iff]
  intro x hx
  obtain ⟨y, -, rfl⟩ := List.mem_map.1 hx
  simp [Catalog.LeadsOn, h]

end ErrorsWithin

/-! ### Item by item -/

namespace Resolver

variable (r : Resolver) {table : Table}

/-- A resource is embedded if there is one way to its table, and if not, it failed. -/
theorem embed_of_length (parent : Table) (resource : Resource) (select : Table → Selection) :
    ((r.catalog.fitting parent.name resource.name resource.hint).length = 1 ∧
        ∃ e target, target.name = resource.name ∧
          r.embed parent resource select = .resolved e (select target).children) ∨
      ((r.catalog.fitting parent.name resource.name resource.hint).length ≠ 1 ∧
        ∃ error, r.embed parent resource select = .failed (some resource.key)
          (.relationship error)) := by
  have hfound := r.relationship_eq_ok_iff parent.name resource.name resource.hint
  rcases r.embed_cases parent resource with
    ⟨error, herror, hembed⟩ | ⟨found, target, hok, htarget, hembed⟩
  · refine Or.inr ⟨fun hone => ?_, error, hembed select⟩
    obtain ⟨w, hway⟩ := List.length_eq_one_iff.1 hone
    cases herror.symm.trans ((hfound _).2 ⟨w, hway, rfl⟩)
  · obtain ⟨w, hway, -⟩ := (hfound found).1 hok
    exact Or.inl ⟨List.length_eq_one_iff.2 ⟨w, hway⟩, _, target, name_of_findTable htarget,
      hembed select⟩

/-- The parse errors of an embedded resource are those of its list that are reached from outside. -/
theorem parseErrors_embed {resource : Resource} {select : Table → Selection}
    {found : ErrorsWithin}
    (hselect : ∀ target, target.name = resource.name →
      (nodeErrors (select target).children).filterMap EmbedError.parse? =
        found.reachedFrom r.catalog target.name) :
    (r.embed table resource select).errors.filterMap EmbedError.parse? =
      (found.inside resource).reachedFrom r.catalog table.name := by
  rcases r.embed_of_length table resource select with ⟨hone, e, target, hname, hembed⟩ |
    ⟨hnone, error, hembed⟩
  · rw [hembed, EmbeddingNode.errors, hselect target hname,
      ErrorsWithin.reachedFrom_inside hone, hname]
  · rw [hembed, ErrorsWithin.reachedFrom_inside_of_ne hnone]
    rfl

/-- A resource with all columns of its table has no parse errors. -/
theorem parseErrors_embed_allColumns (resource : Resource) :
    (r.embed table resource Table.allColumns).errors.filterMap EmbedError.parse? = [] := by
  have hselect (target : Table) (_ : target.name = resource.name) :
      (nodeErrors target.allColumns.children).filterMap EmbedError.parse? =
        ErrorsWithin.reachedFrom r.catalog target.name [] := rfl
  exact r.parseErrors_embed hselect

theorem parseErrors_selectColumn (column : ColumnRef) :
    (nodeErrors (r.selectColumn table column).children).filterMap EmbedError.parse? = [] := by
  unfold selectColumn
  split
  · show (nodeErrors [_]).filterMap _ = []
    rw [nodeErrors_singleton]
    exact r.parseErrors_embed_allColumns _
  · cases table.column? column.name <;> rfl

mutual

theorem parseErrors_selectItem (r : Resolver) : ∀ (item : SelectItem) (table : Table),
    (nodeErrors (r.selectItem table item).children).filterMap EmbedError.parse? =
      item.errorsWithin.reachedFrom r.catalog table.name
  | .wildcard _, _ | .count .., _ => rfl
  | .column column, _ => r.parseErrors_selectColumn column
  | .bare resource, table => by
    show (nodeErrors [_]).filterMap _ = _
    rw [nodeErrors_singleton]
    exact r.parseErrors_embed_allColumns resource
  | .block resource items, table => by
    show (nodeErrors [_]).filterMap _ = _
    rw [nodeErrors_singleton]
    exact r.parseErrors_embed fun target _ => parseErrors_selectList r items target
  | .invalid error _, _ => rfl

/-- The parse errors of what a list means on a table are those of the list that are reached from the
table. -/
theorem parseErrors_selectList (r : Resolver) : ∀ (items : List SelectItem) (table : Table),
    (nodeErrors (r.selectList table items).children).filterMap EmbedError.parse? =
      (listErrorsWithin items).reachedFrom r.catalog table.name
  | [], _ => rfl
  | item :: items, table => by
    show (nodeErrors (_ ++ _)).filterMap _ = _
    rw [nodeErrors_append, List.filterMap_append, parseErrors_selectItem r item table,
      parseErrors_selectList r items table, listErrorsWithin, ErrorsWithin.reachedFrom_append]

end

mutual

theorem leadsOn_selectItem (r : Resolver) : ∀ (item : SelectItem) {table : Table},
    (∀ e ∈ nodeErrors (r.selectItem table item).children, e.isOfEmbedding = false) →
      ∀ x ∈ item.errorsWithin, r.catalog.LeadsOn table.name x.1
  | .wildcard _, _, _ | .column _, _, _ | .count .., _, _ | .bare _, _, _ => by
    rintro _ ⟨⟩
  | .block resource items, table, hclean => by
    rw [show (r.selectItem table (.block resource items)).children = [_] from rfl,
      nodeErrors_singleton] at hclean
    rcases r.embed_of_length table resource fun target => r.selectList target items with
      ⟨hone, e, target, hname, hembed⟩ | ⟨-, error, hembed⟩
    · rw [hembed] at hclean
      have hitems := leadsOn_selectList r items hclean
      rintro _ hx
      obtain ⟨x, hmem, rfl⟩ := List.mem_map.1 hx
      exact ⟨hone, hname ▸ hitems x hmem⟩
    · rw [hembed] at hclean
      have hfailed := hclean (.relationship error) List.mem_cons_self
      cases hfailed
  | .invalid _ _, _, _ => by
    intro x hx
    rw [List.mem_singleton.1 hx]
    trivial

/-- Where no embedding failed, the blocks around every error lead on. -/
theorem leadsOn_selectList (r : Resolver) : ∀ (items : List SelectItem) {table : Table},
    (∀ e ∈ nodeErrors (r.selectList table items).children, e.isOfEmbedding = false) →
      ∀ x ∈ listErrorsWithin items, r.catalog.LeadsOn table.name x.1
  | [], _, _ => by
    rintro _ ⟨⟩
  | item :: items, table, hclean => by
    rw [show (r.selectList table (item :: items)).children = _ ++ _ from rfl,
      nodeErrors_append] at hclean
    obtain ⟨hitem, hitems⟩ := List.forall_mem_append.1 hclean
    have hitem := leadsOn_selectItem r item hitem
    have hitems := leadsOn_selectList r items hitems
    exact List.forall_mem_append.2 ⟨hitem, hitems⟩

end

/-- A query without items has no errors. -/
theorem children_selectQuery (table : Table) (query : QueryTree) :
    (r.selectQuery table query).children = (r.selectList table query.items).children := by
  obtain ⟨_ | ⟨item, items⟩⟩ := query <;> rfl

/-- On a table of the catalog every query has a tree, whether it could be read or not. The walks
over the numbered query and over the numbered tree gather the errors of both. The parse errors in
the tree are, in the same order, the errors of the query in blocks that lead on from the root; and
if no embedding failed, they are all of them. -/
theorem resolveText_parseErrors (r : Resolver) {root : String}
    (hroot : root ∈ r.catalog.tables.map Table.name) (query : String) :
    ∃ t, r.resolveText root query = .ok t ∧
      Arena.Collects (QueryTree.parse query).arena.nodes (QueryTree.parse query).arena.items
        (QueryTree.parse query).errorsWithin ∧
      (QueryTree.parse query).errorsWithin.map Prod.snd = (QueryTree.parse query).errors ∧
      EmbeddingArena.Collects t.arena.nodes t.arena.children t.errors ∧
      t.errors.filterMap EmbedError.parse? =
        ((QueryTree.parse query).errorsWithin.filter fun (path, _) =>
          r.catalog.LeadsOn root path).map Prod.snd ∧
      ((∀ e ∈ t.errors, e.isOfEmbedding = false) →
        t.errors.filterMap EmbedError.parse? = (QueryTree.parse query).errors) := by
  cases htable : r.catalog.table? root with
  | none => exact absurd hroot (Catalog.table?_eq_none_iff.1 htable)
  | some table =>
    obtain ⟨t, ht, hchildren⟩ := resolve_of_table htable (QueryTree.parse query)
    obtain rfl : table.name = root := name_of_findTable htable
    have herrors : t.errors =
        nodeErrors (r.selectList table (QueryTree.parse query).items).children := by
      rw [EmbeddingTree.errors, hchildren, children_selectQuery]
    have hwalk : EmbeddingArena.Collects t.arena.nodes t.arena.children t.errors :=
      t.isForest_arena.collects_iff.2 (filterMap_flattenNodes 0 t.children).symm
    refine ⟨t, ht, Arena.collects_arena _, QueryTree.map_snd_errorsWithin _, hwalk, ?_, ?_⟩
    · rw [herrors]
      exact r.parseErrors_selectList _ table
    · intro hclean
      rw [herrors] at hclean ⊢
      have hleads := r.leadsOn_selectList _ hclean
      rw [r.parseErrors_selectList, ErrorsWithin.reachedFrom_of_forall hleads]
      exact QueryTree.map_snd_errorsWithin _

end Resolver

/-- An error in a table two blocks deep, one in a block that is not related, and one behind them. -/
theorem Resolver.resolveText_parseErrors_staff :
    "employees" ∈ Catalog.staff.tables.map Table.name ∧
      ∃ t, Resolver.resolveText { catalog := .staff } "employees"
          "employees!manager(departments(:id)), rooms(:id), :id" = .ok t ∧
        Arena.Collects
          (QueryTree.parse "employees!manager(departments(:id)), rooms(:id), :id").arena.nodes
          (QueryTree.parse "employees!manager(departments(:id)), rooms(:id), :id").arena.items
          (QueryTree.parse "employees!manager(departments(:id)), rooms(:id), :id").errorsWithin ∧
        (QueryTree.parse "employees!manager(departments(:id)), rooms(:id), :id").errorsWithin.map
            Prod.snd =
          (QueryTree.parse "employees!manager(departments(:id)), rooms(:id), :id").errors ∧
        EmbeddingArena.Collects t.arena.nodes t.arena.children t.errors ∧
        t.errors.filterMap EmbedError.parse? =
          ((QueryTree.parse
            "employees!manager(departments(:id)), rooms(:id), :id").errorsWithin.filter
              fun (path, _) => Catalog.staff.LeadsOn "employees" path).map Prod.snd ∧
        ((∀ e ∈ t.errors, e.isOfEmbedding = false) →
          t.errors.filterMap EmbedError.parse? =
            (QueryTree.parse "employees!manager(departments(:id)), rooms(:id), :id").errors) := by
  have hroot : "employees" ∈ Catalog.staff.tables.map Table.name := by decide
  exact ⟨hroot, Resolver.resolveText_parseErrors { catalog := .staff } hroot _⟩

end EmbedQuery
