import EmbedQuery.Text.Alphanumeric

/-!
# Identifiers

A name is written bare when it consists of identifier characters, and in double quotes otherwise;
inside quotes a double quote is written twice. `closeQuote` reads what `doubleQuotes` writes, and
`closeQuote_doubleQuotes` says that it gives back the name and stops at the closing quote.
-/

namespace EmbedQuery

/-- Bare identifiers consist of letters and numbers of every script, `_` and `$`, in any order. -/
def isIdentifierChar (c : Char) : Bool := Text.isAlphanumeric c || c == '_' || c == '$'

/-- Names that need no quotes. -/
def isBare (name : List Char) : Bool := !name.isEmpty && name.all isIdentifierChar

/-- Writes each double quote of a name twice. -/
def doubleQuotes : List Char → List Char
  | [] => []
  | '"' :: cs => '"' :: '"' :: doubleQuotes cs
  | c :: cs => c :: doubleQuotes cs

/-- Reads a quoted name up to its closing quote; gives the name and what follows the quote, or
nothing when the text ends first. -/
def closeQuote : List Char → Option (List Char × List Char)
  | [] => none
  | '"' :: '"' :: cs => (closeQuote cs).map fun (name, rest) => ('"' :: name, rest)
  | '"' :: cs => some ([], cs)
  | c :: cs => (closeQuote cs).map fun (name, rest) => (c :: name, rest)

/-- A name between double quotes. -/
def quoteName (name : List Char) : List Char := '"' :: doubleQuotes name ++ ['"']

/-- A name as the canonical form writes it: bare where possible. -/
def spellName (name : String) : String :=
  if isBare name.toList then name else String.ofList (quoteName name.toList)

/-- Reading a quoted name gives it back, unless the quote that closes it is followed by another. -/
theorem closeQuote_doubleQuotes (name rest : List Char) (hrest : rest.head? ≠ some '"') :
    closeQuote (doubleQuotes name ++ '"' :: rest) = some (name, rest) := by
  induction name with
  | nil =>
    rw [doubleQuotes, List.nil_append]
    cases rest with
    | nil => rfl
    | cons d ds =>
      have hd : d ≠ '"' := by simpa using hrest
      rw [closeQuote.eq_3 _ (by rintro es h; exact hd (List.cons.inj h).1)]
  | cons c cs ih =>
    by_cases hc : c = '"'
    · subst hc
      simp [doubleQuotes, closeQuote, ih]
    · rw [doubleQuotes.eq_3 _ _ (by simpa using hc), List.cons_append,
        closeQuote.eq_4 _ _ (fun _ h => absurd h hc) hc, ih]
      rfl

/-- What `closeQuote` reads is the name with its quotes doubled, the closing quote and the rest. -/
theorem eq_of_closeQuote {cs name rest : List Char} (h : closeQuote cs = some (name, rest)) :
    cs = doubleQuotes name ++ '"' :: rest := by
  fun_induction closeQuote cs generalizing name with
  | case1 => simp at h
  | case2 cs ih =>
    obtain ⟨⟨inner, after⟩, hinner, heq⟩ := Option.map_eq_some_iff.1 h
    obtain ⟨rfl, rfl⟩ := Prod.mk.inj heq
    simp [doubleQuotes, ih hinner]
  | case3 cs =>
    obtain ⟨rfl, rfl⟩ := Prod.mk.inj (Option.some.inj h)
    rfl
  | case4 c cs _ hc ih =>
    obtain ⟨⟨inner, after⟩, hinner, heq⟩ := Option.map_eq_some_iff.1 h
    obtain ⟨rfl, rfl⟩ := Prod.mk.inj heq
    rw [doubleQuotes.eq_3 _ _ (by simpa using hc), ih hinner, List.cons_append]

end EmbedQuery
