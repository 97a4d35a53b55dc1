import EmbedQuery.Embedding.Arena

/-!
# Numbers of parts

A part of an embedding tree has as many numbers as there are parts in it, all in a row, so where the
numbering starts only shifts them (`flattenNodes_add`), and parts one after the other take numbers
one after the other (`flattenNodes_append`).

Two numbered trees of one table are put one after the other by adding the number of parts in the
first to every number in the second; this is what `++` stands for.
-/

namespace EmbedQuery

/-! ### How many numbers there are -/

theorem EmbeddingNode.size_pos (node : EmbeddingNode) : 0 < node.size := by
  cases node with
  | resolved embedding children => exact Nat.succ_pos _
  | failed key error => exact Nat.one_pos

mutual

/-- A part takes as many numbers as there are parts in it. -/
theorem EmbeddingNode.length_flatten : ∀ (next : Nat) (node : EmbeddingNode),
    (node.flatten next).length = node.size
  | next, .resolved embedding children => by
    have hchildren := length_flattenNodes next children
    simp [EmbeddingNode.flatten, EmbeddingNode.size, hchildren]
  | _, .failed _ _ => rfl

theorem length_flattenNodes : ∀ (next : Nat) (nodes : List EmbeddingNode),
    (flattenNodes next nodes).2.length = nodesSize nodes
  | _, [] => rfl
  | next, node :: nodes => by
    have hnode := node.length_flatten next
    have hnodes := length_flattenNodes (next + node.size) nodes
    simp [flattenNodes, nodesSize, hnode, hnodes]

end

/-! ### Parts side by side -/

/-- The parts inside a table are numbered before it. -/
theorem EmbeddingNode.flatten_resolved (next : Nat) (embedding : Embedding)
    (children : List EmbeddingNode) :
    (resolved embedding children).flatten next =
      (flattenNodes next children).2 ++ [.resolved embedding (flattenNodes next children).1] :=
  rfl

theorem flattenNodes_cons (next : Nat) (node : EmbeddingNode) (nodes : List EmbeddingNode) :
    flattenNodes next (node :: nodes) =
      ((next + node.size - 1) :: (flattenNodes (next + node.size) nodes).1,
        node.flatten next ++ (flattenNodes (next + node.size) nodes).2) := by
  rw [flattenNodes, node.length_flatten]

/-- Parts one after the other are numbered one after the other. -/
theorem flattenNodes_append (next : Nat) (nodes more : List EmbeddingNode) :
    flattenNodes next (nodes ++ more) =
      ((flattenNodes next nodes).1 ++ (flattenNodes (next + nodesSize nodes) more).1,
        (flattenNodes next nodes).2 ++ (flattenNodes (next + nodesSize nodes) more).2) := by
  induction nodes generalizing next with
  | nil => rfl
  | cons node nodes ih =>
    rw [List.cons_append, flattenNodes_cons, flattenNodes_cons, ih, nodesSize, Nat.add_assoc,
      List.cons_append, List.append_assoc]

/-! ### Where numbering starts -/

namespace EmbeddingArena

/-- The part with `n` added to the numbers of its children. -/
def Node.shift (n : Nat) : Node → Node
  | resolved embedding children => .resolved embedding (children.map (n + ·))
  | failed key error => .failed key error

/-- A numbered tree and behind it another one of the same table: the numbers of the second follow on
those of the first. -/
def append (a b : EmbeddingArena) : EmbeddingArena where
  root := { a.root with fields := a.root.fields ++ b.root.fields }
  children := a.children ++ b.children.map (a.nodes.length + ·)
  nodes := a.nodes ++ b.nodes.map (Node.shift a.nodes.length)

instance : Append EmbeddingArena := ⟨append⟩

end EmbeddingArena

open EmbeddingArena

mutual

theorem EmbeddingNode.flatten_add (n : Nat) : ∀ (next : Nat) (node : EmbeddingNode),
    node.flatten (n + next) = (node.flatten next).map (Node.shift n)
  | next, .resolved embedding children => by
    rw [EmbeddingNode.flatten_resolved, EmbeddingNode.flatten_resolved,
      flattenNodes_add n next children, List.map_append]
    rfl
  | _, .failed _ _ => rfl

/-- Numbering from `n` further on gives numbers that are larger by `n`. -/
theorem flattenNodes_add (n : Nat) : ∀ (next : Nat) (nodes : List EmbeddingNode),
    flattenNodes (n + next) nodes =
      ((flattenNodes next nodes).1.map (n + ·), (flattenNodes next nodes).2.map (Node.shift n))
  | _, [] => rfl
  | next, node :: nodes => by
    have hnode := node.flatten_add n next
    have hnodes := flattenNodes_add n (next + node.size) nodes
    have hpos := node.size_pos
    have hlast : n + next + node.size - 1 = n + (next + node.size - 1) := by omega
    rw [flattenNodes_cons, flattenNodes_cons, hnode, Nat.add_assoc n, hnodes, ← Nat.add_assoc n,
      hlast, List.map_cons, List.map_append]

end

theorem flattenNodes_eq_shift (n : Nat) (nodes : List EmbeddingNode) :
    flattenNodes n nodes =
      ((flattenNodes 0 nodes).1.map (n + ·), (flattenNodes 0 nodes).2.map (Node.shift n)) :=
  flattenNodes_add n 0 nodes

end EmbedQuery
