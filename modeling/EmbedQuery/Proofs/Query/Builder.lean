import EmbedQuery.Proofs.Query.Calls
import EmbedQuery.Proofs.Query.Numbering

/-!
# Numbering while reading

A numbered query need not come from a nested one. A builder is a parser that has a list of resources
beside it: a resource that has been read is pushed behind the others, which gives it its number,
also where an error is about to take its place, and never changed or taken back. A reading takes all
resources with it.

`Builder.itemsFrom_eq` and `Builder.parse_eq` say that reading this way pushes the resources of the
nested list, numbered from the next number on. Together with the depth to which a parser goes
(`Parser.itemsFrom_nesting`) this gives `Builder.afterAll_wellFormed`: whatever was read before,
successfully or not, the next reading starts without resources outside of any block, and the numbers
it gives are well-formed.
-/

namespace EmbedQuery

open Arena

/-- A parser and the resources it has numbered. -/
structure Builder where
  parser : Parser
  nodes : List Arena.Node := []

namespace Builder

/-- A builder before the first token of `query`. -/
def ofQuery (query : String) : Builder := { parser := .ofQuery query }

/-- The builder with its parser elsewhere. -/
def moveTo (b : Builder) (p : Parser) : Builder := { b with parser := p }

/-- Pushes a resource. Its number is the number of resources before it, and the number goes in its
place, or the error that takes it. -/
def push (resource : Resource) (select : Option (List Item)) (fault : Option ParseError)
    (b : Builder) : Item × Builder :=
  (fault.elim (.embed b.nodes.length) .invalid,
    { b with nodes := b.nodes ++ [⟨resource, select⟩] })

/-- Pushes the resource of an item that has no list, if it is one. -/
def settle (item : SelectItem) (b : Builder) : Item × Builder :=
  ((item.flatten b.nodes.length).1, { b with nodes := b.nodes ++ (item.flatten b.nodes.length).2 })

/-- Ends a block behind its list: reads the closing parenthesis, unless the parser is halted. A
block without one is an error, and the resources inside it stay. -/
def close (resource : Resource) (fault : Option ParseError) (select : List Item) (b : Builder) :
    Item × Builder :=
  if b.parser.halted then
    b.push { resource with span := resource.span.cover b.parser.previous } select fault
  else if b.parser.peek = .rightParen then
    (b.moveTo b.parser.advance).push
      { resource with span := resource.span.cover b.parser.current.span } select fault
  else (.invalid (b.parser.unexpected "',' or ')'"), b.moveTo b.parser.halt)

/-- Reads one item; `items` reads the list inside a block. -/
def item (items : Builder → List Item × Builder) (b : Builder) : Item × Builder :=
  match Parser.head b.parser with
  | .error error p => (.invalid error, b.moveTo p.halt)
  | .ok (.complete item) p => (b.moveTo p).settle item
  | .ok (.opening resource fault) p =>
    let (select, b) :=
      if p.peek = .rightParen then ([], b.moveTo p.enter) else items (b.moveTo p.enter)
    close resource fault select (b.moveTo b.parser.leave)

/-- Reads one item or more, with commas between them, in as many steps as said at most. -/
def itemsFrom : Nat → Builder → List Item × Builder
  | 0, b => ([], b)
  | fuel + 1, b =>
    let (item, b) := b.item (itemsFrom fuel)
    if b.parser.halted || b.parser.peek ≠ .comma then ([item], b)
    else
      let (items, b) := itemsFrom fuel (b.moveTo b.parser.advance)
      (item :: items, b)

/-- Reads a list up to the end of the input. The resources go with the list and are gone from the
builder. -/
def parse (b : Builder) : Arena × Builder :=
  let (items, b) :=
    if b.parser.peek = .eof then ([], b) else itemsFrom (b.parser.rest.length + 1) b
  if b.parser.halted || b.parser.peek = .eof then (⟨items, b.nodes⟩, ⟨b.parser, []⟩)
  else
    (⟨items ++ [.invalid (b.parser.unexpected "',' or end of input")], b.nodes⟩,
      ⟨b.parser.halt, []⟩)

/-- The builder behind a call. A strict call reads in the same way and then looks for an error. -/
def after (b : Builder) : Parser.Call → Builder
  | .parse | .parseStrict => b.parse.2

/-- The builder behind some calls, one after another. -/
def afterAll (b : Builder) (calls : List Parser.Call) : Builder := calls.foldl after b

/-! ### What is pushed -/

/-- What a builder has once its parser has read an item. -/
def pushedItem (nodes : List Arena.Node) (read : SelectItem × Parser) : Item × Builder :=
  ((read.1.flatten nodes.length).1, ⟨read.2, nodes ++ (read.1.flatten nodes.length).2⟩)

/-- What a builder has once its parser has read a list. -/
def pushedList (nodes : List Arena.Node) (read : List SelectItem × Parser) : List Item × Builder :=
  ((flattenList nodes.length read.1).1, ⟨read.2, nodes ++ (flattenList nodes.length read.1).2⟩)

theorem pushedList_nil (nodes : List Arena.Node) (p : Parser) :
    pushedList nodes ([], p) = ([], ⟨p, nodes⟩) := by
  show ([], Builder.mk p (nodes ++ [])) = _
  rw [List.append_nil]

theorem pushedList_singleton (nodes : List Arena.Node) (i : SelectItem) (p : Parser) :
    pushedList nodes ([i], p) =
      ([(pushedItem nodes (i, p)).1], (pushedItem nodes (i, p)).2) := by
  show (_, Builder.mk p (nodes ++ (_ ++ []))) = _
  rw [List.append_nil]
  rfl

theorem pushedList_cons (nodes : List Arena.Node) (i : SelectItem) (items : List SelectItem)
    (p q : Parser) :
    pushedList nodes (i :: items, q) =
      ((pushedItem nodes (i, p)).1 :: (pushedList (pushedItem nodes (i, p)).2.nodes (items, q)).1,
        (pushedList (pushedItem nodes (i, p)).2.nodes (items, q)).2) := by
  simp [pushedList, pushedItem, flattenList_cons]

theorem itemsFrom_last {fuel : Nat} {b c : Builder} {i : Item}
    (h : item (itemsFrom fuel) b = (i, c))
    (hc : c.parser.halted = true ∨ c.parser.peek ≠ .comma) :
    itemsFrom (fuel + 1) b = ([i], c) := by
  have hend : (c.parser.halted || c.parser.peek ≠ .comma) = true := by simpa using hc
  rw [itemsFrom, h]
  exact if_pos hend

theorem itemsFrom_comma {fuel : Nat} {b c : Builder} {i : Item}
    (h : item (itemsFrom fuel) b = (i, c)) (hhalted : c.parser.halted = false)
    (hcomma : c.parser.peek = .comma) :
    itemsFrom (fuel + 1) b =
      (i :: (itemsFrom fuel (c.moveTo c.parser.advance)).1,
        (itemsFrom fuel (c.moveTo c.parser.advance)).2) := by
  have hend : ¬(c.parser.halted || c.parser.peek ≠ .comma) = true := by simp [hhalted, hcomma]
  rw [itemsFrom, h]
  exact if_neg hend

/-- A block is pushed behind the resources inside it, also where an error takes its place. -/
theorem push_eq (resource : Resource) (fault : Option ParseError) (items : List SelectItem)
    (nodes : List Arena.Node) (p : Parser) :
    push resource (some (flattenList nodes.length items).1) fault
        ⟨p, nodes ++ (flattenList nodes.length items).2⟩ =
      pushedItem nodes (Parser.itemOr fault (.block resource items), p) := by
  cases fault with
  | none =>
    show (_, Builder.mk p ((nodes ++ _) ++ [_])) = (_, Builder.mk p (nodes ++ (_ ++ [_])))
    rw [List.append_assoc, List.length_append]
    rfl
  | some error =>
    show (_, Builder.mk p ((nodes ++ _) ++ [_])) =
      (_, Builder.mk p (nodes ++ ((_ ++ [_]) ++ [])))
    rw [List.append_assoc, List.append_nil]
    rfl

theorem close_eq (resource : Resource) (fault : Option ParseError) (items : List SelectItem)
    (nodes : List Arena.Node) (p : Parser) :
    close resource fault (flattenList nodes.length items).1
        ⟨p, nodes ++ (flattenList nodes.length items).2⟩ =
      pushedItem nodes (Parser.close resource fault items p) := by
  unfold close Parser.close
  split
  · exact push_eq _ _ _ _ _
  split
  · exact push_eq _ _ _ _ _
  · rfl

theorem item_eq {items : Builder → List Item × Builder} {read : Parser → List SelectItem × Parser}
    (hitems : ∀ b, items b = pushedList b.nodes (read b.parser)) (b : Builder) :
    b.item items = pushedItem b.nodes (b.parser.item read) := by
  match h : Parser.head b.parser with
  | .error e q =>
    rw [item, h, Parser.item_error h]
    show _ = (_, Builder.mk q.halt (b.nodes ++ []))
    rw [List.append_nil]
    rfl
  | .ok (.complete i) q =>
    rw [item, h, Parser.item_complete h]
    rfl
  | .ok (.opening resource fault) q =>
    by_cases hq : q.peek = .rightParen
    · rw [Parser.item_empty h hq, ← close_eq]
      simp only [item, h, hq, if_true]
      rw [flattenList, List.append_nil]
      rfl
    · rw [Parser.item_block h hq, ← close_eq]
      simp only [item, h, hq, if_false, hitems]
      rfl

/-- A list pushes its resources behind those that are there, numbered from there on. -/
theorem itemsFrom_eq (fuel : Nat) (b : Builder) :
    b.itemsFrom fuel = pushedList b.nodes (Parser.itemsFrom fuel b.parser) := by
  induction fuel generalizing b with
  | zero => exact (pushedList_nil _ _).symm
  | succ fuel ih =>
    have hitem := item_eq ih b
    rcases h : Parser.item (Parser.itemsFrom fuel) b.parser with ⟨i, q⟩
    rw [h] at hitem
    by_cases hend : q.halted = true ∨ q.peek ≠ .comma
    · rw [itemsFrom_last hitem hend, Parser.itemsFrom_last h hend]
      exact (pushedList_singleton _ _ _).symm
    · simp only [not_or, ne_eq, Decidable.not_not, Bool.not_eq_true] at hend
      rw [itemsFrom_comma hitem hend.1 hend.2, Parser.itemsFrom_comma h hend.1 hend.2, ih,
        pushedList_cons _ _ _ q]
      rfl

/-- A reading that starts without resources gives the numbered query, and leaves none. -/
theorem parse_eq (p : Parser) : parse ⟨p, []⟩ = (p.parse.1.arena, ⟨p.parse.2, []⟩) := by
  have htop : (if p.peek = .eof then ([], ⟨p, []⟩) else itemsFrom (p.rest.length + 1) ⟨p, []⟩) =
      pushedList [] p.topItems := by
    unfold Parser.topItems
    split
    · exact (pushedList_nil _ _).symm
    · exact itemsFrom_eq _ _
  rw [parse, htop, Parser.parse_eq]
  generalize p.topItems = top
  obtain ⟨items, q⟩ := top
  show (if q.halted || q.peek = .eof then _ else _) = _
  split
  · rfl
  · simp [QueryTree.arena, flattenList_append, flattenList, SelectItem.flatten]

theorem afterAll_eq (p : Parser) (calls : List Parser.Call) :
    afterAll ⟨p, []⟩ calls = ⟨p.afterAll calls, []⟩ := by
  induction calls generalizing p with
  | nil => rfl
  | cons call calls ih =>
    have hcall : after ⟨p, []⟩ call = ⟨p.after call, []⟩ := by
      cases call with
      | parse => exact congrArg Prod.snd (parse_eq p)
      | parseStrict =>
        rw [Parser.after, Parser.parseStrict_snd]
        exact congrArg Prod.snd (parse_eq p)
    show afterAll (after ⟨p, []⟩ call) calls = _
    rw [hcall, ih]
    rfl

end Builder

/-! ### How deep a parser goes -/

namespace Parser

variable {p q : Parser}

theorem nesting_itemOr (fault : Option ParseError) (item : SelectItem) :
    (itemOr fault item).nesting ≤ item.nesting := by
  cases fault with
  | none => exact Nat.le_refl _
  | some error => exact Nat.zero_le _

theorem nesting_close (resource : Resource) (fault : Option ParseError) (items : List SelectItem)
    (p : Parser) : (close resource fault items p).1.nesting ≤ listNesting items + 1 := by
  unfold close
  split
  · exact nesting_itemOr _ _
  split
  · exact nesting_itemOr _ _
  · exact Nat.zero_le _

theorem nesting_of_head {i : SelectItem} (h : head p = .ok (.complete i) q) : i.nesting = 0 := by
  generalize hhead : Head.complete i = hd at h
  cases head_shape h with
  | wildcard =>
    cases hhead
    rfl
  | count fault label cast span =>
    cases hhead
    exact Nat.le_zero.1 (nesting_itemOr fault (.count label cast span))
  | suffix resource isResource fault aggregate cast =>
    cases hhead
    refine Nat.le_zero.1 ?_
    unfold suffixItem
    cases isResource <;> exact nesting_itemOr _ _
  | opening => cases hhead

theorem item_nesting {items : Parser → List SelectItem × Parser}
    (hitems : ∀ p, p.depth ≤ maxDepth → p.depth + listNesting (items p).1 ≤ maxDepth)
    (hp : p.depth ≤ maxDepth) : p.depth + (item items p).1.nesting ≤ maxDepth := by
  match h : head p with
  | .error e q =>
    rw [item_error h]
    exact hp
  | .ok (.complete i) q =>
    rw [item_complete h]
    show p.depth + i.nesting ≤ maxDepth
    rw [nesting_of_head h]
    exact hp
  | .ok (.opening resource fault) q =>
    have hq : q.depth = p.depth := ((head_reads p).ok h).2.depth
    have hroom : q.depth < maxDepth := by
      cases head_shape h with
      | opening _ _ hdepth => exact hdepth
    by_cases hparen : q.peek = .rightParen
    · have hclose := nesting_close resource fault [] q
      rw [listNesting] at hclose
      rw [item_empty h hparen]
      omega
    · have hclose := nesting_close resource fault (items q.enter).1 (items q.enter).2.leave
      have hinner : q.depth + 1 + listNesting (items q.enter).1 ≤ maxDepth := hitems q.enter hroom
      rw [item_block h hparen]
      omega

/-- The blocks a parser lies in and those in each other in a list it reads are not too many,
wherever the reading stops. -/
theorem itemsFrom_nesting (fuel : Nat) (hp : p.depth ≤ maxDepth) :
    p.depth + listNesting (itemsFrom fuel p).1 ≤ maxDepth := by
  induction fuel generalizing p with
  | zero => exact hp
  | succ fuel ih =>
    have hitem := item_nesting (fun p hp => ih hp) hp
    have hreaches := item_reaches (itemsFrom_reaches fuel) p
    rcases h : item (itemsFrom fuel) p with ⟨i, q⟩
    rw [h] at hitem hreaches
    by_cases hend : q.halted = true ∨ q.peek ≠ .comma
    · rw [itemsFrom_last h hend, listNesting_singleton]
      exact hitem
    · simp only [not_or, ne_eq, Decidable.not_not, Bool.not_eq_true] at hend
      have hdepth : q.advance.depth = p.depth := hreaches.depth
      have hmore := ih (p := q.advance) (by rw [hdepth]; exact hp)
      rw [hdepth] at hmore
      rw [itemsFrom_comma h hend.1 hend.2, listNesting, ← Nat.add_max_add_left]
      exact Nat.max_le.2 ⟨hitem, hmore⟩

/-- A query that is read outside of any block has `maxDepth` blocks in each other at most. -/
theorem nesting_parse (hp : p.depth = 0) : listNesting p.parse.1.items ≤ maxDepth := by
  have htop : listNesting (topItems p).1 ≤ maxDepth := by
    unfold topItems
    split
    · exact Nat.zero_le _
    · have hitems := itemsFrom_nesting (p.rest.length + 1) (hp ▸ Nat.zero_le _ : p.depth ≤ maxDepth)
      omega
  have hlast (items : List SelectItem) (e : ParseError) :
      listNesting (items ++ [.invalid e []]) = listNesting items := by
    induction items with
    | nil => rfl
    | cons item items ih => rw [List.cons_append, listNesting, ih, listNesting]
  rw [parse_eq]
  split
  · exact htop
  · exact Nat.le_trans (Nat.le_of_eq (hlast _ _)) htop

end Parser

/-! ### Well-formed numbers -/

namespace Arena

/-- The numbers that the list of a query refers to. -/
abbrev topIds (a : Arena) : List Nat := itemIds a.items

/-- The numbers that the list of the resource with a number refers to. -/
abbrev innerIds (a : Arena) : Nat → List Nat := childrenIn Node.ids a.nodes

/-- The numbers of a query are references without cycles or sharing, and not too deep. -/
structure WellFormed (a : Arena) : Prop where
  /-- The list of a resource refers to smaller numbers than its own. -/
  smaller : ∀ (id : Nat) (node : Node), a.nodes[id]? = some node → ∀ inner ∈ node.ids, inner < id
  /-- The list of the query refers to resources that are there. -/
  within : ∀ id ∈ a.topIds, id < a.nodes.length
  /-- No number is referred to twice, not even by resources that nothing refers to. -/
  once : (a.nodes.flatMap Node.ids ++ a.topIds).Nodup
  /-- Every way down leads through 128 blocks at most. -/
  shallow : ∀ way, WayDown a.innerIds a.topIds way → blockCount a.nodes way ≤ 128

/-- Every resource is referred to, and the numbers are the post-order. -/
structure IsForest (a : Arena) : Prop where
  reachable : ∀ id < a.nodes.length, ∃ top ∈ a.topIds, id = top ∨ Below a.innerIds id top
  postOrder : PostOrder a.innerIds a.topIds (List.range a.nodes.length)

end Arena

namespace QueryTree

theorem wellFormed_arena {t : QueryTree} (hnesting : listNesting t.items ≤ maxDepth) :
    t.arena.WellFormed where
  smaller id node hnode inner hinner := by
    have hlt := ids_lt_of_flattenList 0 t.items id node hnode inner hinner
    rwa [Nat.zero_add] at hlt
  within id hid := by
    have hlt := (mem_ids_flattenList hid).2
    rwa [Nat.zero_add] at hlt
  once := by
    obtain ⟨ids, hperm, hsublist⟩ := ids_flattenList 0 t.items
    exact hperm.nodup_iff.1 (hsublist.nodup List.nodup_range')
  shallow way hway := by
    have hcount := blockCount_flattenList [] [] t.items way
    rw [List.append_nil, List.nil_append] at hcount
    exact Nat.le_trans (hcount hway) hnesting

theorem isForest_arena {t : QueryTree} (herrors : t.errors = []) : t.arena.IsForest := by
  have hwalk := postOrder_flattenList [] [] t.items herrors
  rw [List.append_nil, List.nil_append, List.length_nil, ← List.range_eq_range'] at hwalk
  exact ⟨fun id hid => hwalk.mem_iff.1 (List.mem_range.2 hid), hwalk⟩

end QueryTree

/-- Whatever was read before, the parser stands outside of any block and has no resources left. What
it reads next has well-formed numbers, and if there are no errors in it, all resources are referred
to and their numbers are the post-order. -/
theorem Builder.afterAll_wellFormed (query : String) (calls : List Parser.Call) :
    (ofQuery query).afterAll calls = ⟨(Parser.ofQuery query).afterAll calls, []⟩ ∧
      ((Parser.ofQuery query).afterAll calls).depth = 0 ∧
      ((ofQuery query).afterAll calls).parse.1 =
        ((Parser.ofQuery query).afterAll calls).parse.1.arena ∧
      ((ofQuery query).afterAll calls).parse.1.WellFormed ∧
      (((Parser.ofQuery query).afterAll calls).parse.1.errors = [] →
        ((ofQuery query).afterAll calls).parse.1.IsForest) := by
  have hplace : (ofQuery query).afterAll calls = ⟨(Parser.ofQuery query).afterAll calls, []⟩ :=
    afterAll_eq _ calls
  have hdepth : ((Parser.ofQuery query).afterAll calls).depth = 0 :=
    (Parser.afterAll_reaches _ calls).depth
  have htree : ((ofQuery query).afterAll calls).parse.1 =
      ((Parser.ofQuery query).afterAll calls).parse.1.arena := by
    rw [hplace, parse_eq]
  refine ⟨hplace, hdepth, htree, ?_, fun herrors => ?_⟩
  · rw [htree]
    exact QueryTree.wellFormed_arena (Parser.nesting_parse hdepth)
  · rw [htree]
    exact QueryTree.isForest_arena herrors

end EmbedQuery
