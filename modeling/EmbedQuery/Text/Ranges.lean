/-!
# Classes of characters given by ranges

A character class that a standard lists as ranges of code points is kept here as that list, in
increasing order. `covers` looks a code point up and stops at the first range that lies above it;
`covers_iff` says that on an increasing list this early stop loses nothing.
-/

namespace EmbedQuery.Text

/-- Closed ranges of code points. -/
abbrev Ranges := List (Nat × Nat)

/-- Whether `n` lies in one of `ranges`, which are read in increasing order. -/
def covers : Ranges → Nat → Bool
  | [], _ => false
  | (low, high) :: rest, n => if n < low then false else n ≤ high || covers rest n

/-- The ranges do not overlap and go up, the first starting at `start` or later. -/
def Increasing (start : Nat) : Ranges → Prop
  | [] => True
  | (low, high) :: rest => start ≤ low ∧ low ≤ high ∧ Increasing (high + 1) rest

theorem lt_low_of_increasing {start : Nat} :
    ∀ {ranges : Ranges}, Increasing start ranges → ∀ r ∈ ranges, start ≤ r.1
  | [], _, _, hr => nomatch hr
  | (low, high) :: rest, ⟨h, hle, hrest⟩, r, hr => by
    rcases List.mem_cons.1 hr with rfl | hr
    · exact h
    · exact Nat.le_trans (by omega) (lt_low_of_increasing hrest r hr)

/-- Stopping at the first range above `n` is right when the ranges increase. -/
theorem covers_iff {start : Nat} {n : Nat} :
    ∀ {ranges : Ranges}, Increasing start ranges →
      (covers ranges n = true ↔ ∃ r ∈ ranges, r.1 ≤ n ∧ n ≤ r.2)
  | [], _ => by simp [covers]
  | (low, high) :: rest, ⟨_, hle, hrest⟩ => by
    by_cases hn : n < low
    · simp only [covers, hn, if_true, Bool.false_eq_true, List.mem_cons, false_iff]
      rintro ⟨r, rfl | hr, h₁, -⟩
      · exact absurd h₁ (by simpa using hn)
      · have := lt_low_of_increasing hrest r hr
        omega
    · simp only [covers, hn, if_false, Bool.or_eq_true, decide_eq_true_eq, covers_iff hrest,
        List.mem_cons, exists_eq_or_imp]
      constructor
      · rintro (h | h)
        · exact Or.inl ⟨by omega, h⟩
        · exact Or.inr h
      · rintro (⟨-, h⟩ | h)
        · exact Or.inl h
        · exact Or.inr h

end EmbedQuery.Text
