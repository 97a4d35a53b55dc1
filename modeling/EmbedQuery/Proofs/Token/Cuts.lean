import EmbedQuery.Proofs.Token.Splitting

/-!
# Cutting a text between its tokens

A token that is as long as can be is so before any beginning of what follows it. So a text may be
cut before and behind some of its tokens, and the piece between the cuts splits into these tokens
(`Splits.exists_cut`); it begins where the first of them does and ends where the last one does.
-/

namespace EmbedQuery

variable {n : Nat} {cs rest more : List Char} {ts us before after : List Token}

/-- Less text behind a token does not make the token longer. -/
theorem Lexeme.Longest.of_append {text : List Char} (h : Longest text (rest ++ more)) :
    Longest text rest := by
  have hhead {c : Char} (hc : rest.head? = some c) : (rest ++ more).head? = some c := by
    rw [List.head?_append, hc]
    rfl
  refine ⟨fun hbare c hc => h.bare hbare c (hhead hc), fun htext hc => h.colon htext (hhead hc),
    fun name htext hc => h.closed name htext (hhead hc), fun cs htext hclose => ?_⟩
  exact (List.append_eq_nil_iff.1 (h.unclosed cs htext hclose)).1

namespace Splits

/-- A text can be cut behind its first tokens. -/
theorem cut_behind (h : Splits n cs (ts ++ us)) :
    ∃ text back, cs = text ++ back ∧ Splits n text ts ∧
      n + byteLength text = (ts.getLast?.map fun t => t.span.stop).getD n := by
  induction ts generalizing n cs with
  | nil => exact ⟨[], cs, rfl, .blanks (by simp), rfl⟩
  | cons t ts ih =>
    cases h with
    | @token _ gap rest x _ hgap hx hlongest hrest =>
      obtain ⟨text, back, rfl, hsplits, hstop⟩ := ih hrest
      refine ⟨gap ++ (x.text ++ text), back, by simp, .token hgap hx hlongest.of_append hsplits, ?_⟩
      rw [List.getLast?_cons, byteLength_append, byteLength_append, ← Nat.add_assoc,
        ← Nat.add_assoc, hstop]
      cases ts.getLast? <;> rfl

/-- A text can be cut before a token of it. -/
theorem cut_before {t : Token} (h : Splits n cs (ts ++ t :: us)) :
    ∃ front back, cs = front ++ back ∧ t.span.start = n + byteLength front ∧
      Splits (n + byteLength front) back (t :: us) := by
  induction ts generalizing n cs with
  | nil =>
    cases h with
    | @token _ gap rest x _ hgap hx hlongest hrest =>
      have hblank : ∀ c ∈ ([] : List Char), Text.isBlank c = true := by simp
      exact ⟨gap, x.text ++ rest, rfl, rfl, .token hblank hx hlongest hrest⟩
  | cons s ts ih =>
    cases h with
    | @token _ gap rest x _ hgap hx hlongest hrest =>
      obtain ⟨front, back, rfl, hstart, hsplits⟩ := ih hrest
      have hlength : n + byteLength (gap ++ (x.text ++ front)) =
          n + byteLength gap + byteLength x.text + byteLength front := by
        simp only [byteLength_append, Nat.add_assoc]
      refine ⟨gap ++ (x.text ++ front), back, by simp, ?_, ?_⟩
      · rw [hlength]
        exact hstart
      · rw [hlength]
        exact hsplits

/-- The piece of a text from the start of one of its tokens to the stop of a later one has the
tokens from the one to the other. -/
theorem exists_cut {first last : Token} (h : Splits 0 cs (before ++ us ++ after))
    (hfirst : us.head? = some first) (hlast : us.getLast? = some last) :
    ∃ front text back, cs = front ++ (text ++ back) ∧ first.span.start = byteLength front ∧
      last.span.stop = byteLength front + byteLength text ∧
      Splits (byteLength front) text us := by
  obtain ⟨more, rfl⟩ := List.head?_eq_some_iff.1 hfirst
  rw [List.append_assoc, List.cons_append] at h
  obtain ⟨front, rest, rfl, hstart, hsplits⟩ := h.cut_before
  rw [Nat.zero_add] at hstart hsplits
  rw [← List.cons_append] at hsplits
  obtain ⟨text, back, rfl, hsplits, hstop⟩ := hsplits.cut_behind
  rw [hlast] at hstop
  exact ⟨front, text, back, rfl, hstart, hstop.symm, hsplits⟩

end Splits

end EmbedQuery
