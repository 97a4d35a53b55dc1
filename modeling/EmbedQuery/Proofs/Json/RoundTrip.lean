import EmbedQuery.Json.Writer
import EmbedQuery.Proofs.Json.Literal

/-!
# JSON written and read

A value whose numbers, strings and keys are literals that the reader takes whole is read back from
its text in either layout (`parse?_render`), so two such values of one text are one value
(`render_injective`). The induction is on the number of steps that the reader may take (`reads`).
For a value, the items of an array and the members of an object alike, twice as many steps as there
are characters are enough (`Reads`).
-/

namespace EmbedQuery.Json

variable {layout : Layout} {fuel : Nat} {c : Char} {cs rest behind key text : List Char}
  {j value item : Json} {items : List Json} {members : List (List Char × Json)}

/-! ### Blanks -/

theorem skipSpace_cons (h : isSpace c = false) : skipSpace (c :: cs) = c :: cs := by
  rw [skipSpace, List.dropWhile_cons, h]
  rfl

theorem skipSpace_skipSpace (cs : List Char) : skipSpace (skipSpace cs) = skipSpace cs := by
  induction cs with
  | nil => rfl
  | cons c cs ih =>
    cases hspace : isSpace c with
    | true =>
      have hskip : skipSpace (c :: cs) = skipSpace cs := List.dropWhile_cons_of_pos hspace
      rw [hskip, ih]
    | false => rw [skipSpace_cons hspace, skipSpace_cons hspace]

theorem skipSpace_lineBreak_append (layout : Layout) (cs : List Char) :
    skipSpace (layout.lineBreak ++ cs) = skipSpace cs := by
  cases layout with
  | line => rfl
  | lines level =>
    refine List.dropWhile_append_of_pos fun c hc => ?_
    obtain rfl | hc := List.mem_cons.1 hc
    · rfl
    · rw [(List.mem_replicate.1 hc).2]
      rfl

theorem colon_deeper (layout : Layout) : layout.deeper.colon = layout.colon := by
  cases layout <;> rfl

/-- Between a key and its value stand a colon and blanks at most. -/
theorem skipSpace_colon_append (layout : Layout) (cs : List Char) :
    ∃ text, skipSpace (layout.colon ++ cs) = ':' :: text ∧ skipSpace text = skipSpace cs := by
  cases layout with
  | line => exact ⟨cs, rfl, rfl⟩
  | lines level => exact ⟨' ' :: cs, rfl, rfl⟩

/-! ### Numbers -/

/-- What comes next does not go on with a number. -/
def Stops (cs : List Char) : Prop :=
  ∀ c ∈ cs.head?, c.isDigit = false ∧ c ≠ '.' ∧ c ≠ 'e' ∧ c ≠ 'E'

/-- A literal that the reader takes whole as a number, whatever comes behind it. -/
def IsNumber (literal : List Char) : Prop :=
  ∀ rest, Stops rest → readNumber (literal ++ rest) = some (literal, rest)

theorem stops_lineBreak_append (h : Stops cs) : Stops (layout.lineBreak ++ cs) := by
  cases layout with
  | line => exact h
  | lines level => simp [Stops, Layout.lineBreak]

theorem readDigits_append {digits : List Char} (hdigits : ∀ c ∈ digits, c.isDigit)
    (hne : digits ≠ []) (h : Stops rest) : readDigits (digits ++ rest) = some (digits, rest) := by
  have htake : rest.takeWhile Char.isDigit = [] := by
    cases rest with
    | nil => rfl
    | cons c rest => rw [List.takeWhile_cons_of_neg (by simp [(h c rfl).1])]
  have hdrop : rest.dropWhile Char.isDigit = rest := by
    cases rest with
    | nil => rfl
    | cons c rest => rw [List.dropWhile_cons_of_neg (by simp [(h c rfl).1])]
  rw [readDigits, List.takeWhile_append_of_pos hdigits, List.dropWhile_append_of_pos hdigits, htake,
    hdrop, List.append_nil]
  cases digits with
  | nil => exact absurd rfl hne
  | cons c digits => rfl

theorem isDigit_of_mem_toDigits {n : Nat} (h : c ∈ Nat.toDigits 10 n) : c.isDigit :=
  Nat.isDigit_of_mem_toDigits (by decide) (by decide) h

theorem exists_toDigits_eq (n : Nat) : ∃ c digits, Nat.toDigits 10 n = c :: digits ∧ c.isDigit := by
  obtain ⟨c, digits, hdigits⟩ :=
    List.exists_cons_of_ne_nil (Nat.toDigits_ne_nil (n := n) (b := 10))
  exact ⟨c, digits, hdigits, isDigit_of_mem_toDigits (n := n) (hdigits ▸ List.mem_cons_self)⟩

/-- A number that is not zero does not start with a zero. -/
theorem head_toDigits_ne {n : Nat} (h : 0 < n) : (Nat.toDigits 10 n).head? ≠ some '0' := by
  induction n using Nat.strongRecOn with
  | ind n ih =>
    obtain hlt | hle := Nat.lt_or_ge n 10
    · rw [Nat.toDigits_of_lt_base hlt]
      have hdigit : ∀ d < 10, 0 < d → [Nat.digitChar d].head? ≠ some '0' := by decide
      exact hdigit n hlt h
    · have hhead := ih (n / 10) (by omega) (by omega)
      obtain ⟨c, digits, hdigits, -⟩ := exists_toDigits_eq (n / 10)
      rw [hdigits] at hhead
      rw [Nat.toDigits_of_base_le (by decide) hle, hdigits]
      exact hhead

theorem readWhole_toDigits_append (n : Nat) (h : Stops rest) :
    readWhole (Nat.toDigits 10 n ++ rest) = some (Nat.toDigits 10 n, rest) := by
  obtain rfl | hpos := Nat.eq_zero_or_pos n
  · rfl
  · have hhead := head_toDigits_ne hpos
    have hread : readDigits (Nat.toDigits 10 n ++ rest) = some (Nat.toDigits 10 n, rest) :=
      readDigits_append (fun _ => isDigit_of_mem_toDigits) Nat.toDigits_ne_nil h
    obtain ⟨c, digits, hdigits, -⟩ := exists_toDigits_eq n
    rw [hdigits] at hhead hread ⊢
    rw [List.cons_append, readWhole]
    · exact hread
    · intro _ heq
      exact hhead (congrArg some (List.cons.inj heq).1)

theorem isNumber_toDigits (n : Nat) : IsNumber (Nat.toDigits 10 n) := by
  intro rest h
  have hfraction : readFraction rest = some ([], rest) := by
    cases rest with
    | nil => rfl
    | cons c rest =>
      rw [readFraction]
      intro _ heq
      exact (h c rfl).2.1 (List.cons.inj heq).1
  have hexponent : readExponent rest = some ([], rest) := by
    cases rest with
    | nil => rfl
    | cons c rest =>
      obtain ⟨-, -, hlower, hupper⟩ := h c rfl
      rw [readExponent, if_neg (by simp [hlower, hupper])]
  have hwhole := readWhole_toDigits_append n h
  obtain ⟨c, digits, hdigits, hdigit⟩ := exists_toDigits_eq n
  rw [hdigits] at hwhole ⊢
  rw [readNumber]
  · rw [hwhole]
    show (readFraction rest).bind _ = _
    rw [hfraction]
    show (readExponent rest).bind _ = _
    rw [hexponent]
    simp
  · intro _ heq
    rw [(List.cons.inj heq).1] at hdigit
    exact absurd hdigit (by decide)

/-! ### Values -/

/-- A literal that the reader takes whole as a string, up to the quote behind it. -/
def IsString (literal : List Char) : Prop :=
  ∀ rest, readString (literal ++ '"' :: rest) = some (literal, rest)

mutual

/-- The numbers, strings and keys of a value are what they are meant to be. -/
def WellFormed : Json → Prop
  | null | bool _ => True
  | number literal => IsNumber literal
  | string literal => IsString literal
  | array items => ItemsWellFormed items
  | object members => MembersWellFormed members

def ItemsWellFormed : List Json → Prop
  | [] => True
  | item :: items => item.WellFormed ∧ ItemsWellFormed items

def MembersWellFormed : List (List Char × Json) → Prop
  | [] => True
  | (key, value) :: members => IsString key ∧ value.WellFormed ∧ MembersWellFormed members

end

/-- A number starts with a digit or a minus. -/
theorem IsNumber.exists_cons {literal : List Char} (h : IsNumber literal) :
    ∃ c cs, literal = c :: cs ∧ (c.isDigit ∨ c = '-') := by
  have hread : readNumber literal = some (literal, []) := by
    simpa using h [] (by simp [Stops])
  cases literal with
  | nil => cases hread
  | cons c cs =>
    refine ⟨c, cs, rfl, Decidable.byContradiction fun hhead => ?_⟩
    rw [not_or] at hhead
    have hwhole : readWhole (c :: cs) = none := by
      rw [readWhole, readDigits, List.takeWhile_cons_of_neg hhead.1]
      intro _ heq
      exact hhead.1 (by rw [(List.cons.inj heq).1]; decide)
    rw [readNumber, hwhole] at hread
    · cases hread
    · intro _ heq
      exact hhead.2 (List.cons.inj heq).1

theorem ne_of_startsNumber {d : Char} (h : c.isDigit ∨ c = '-') (hd : ¬ (d.isDigit ∨ d = '-')) :
    c ≠ d :=
  fun heq => hd (heq ▸ h)

theorem isSpace_of_startsNumber (h : c.isDigit ∨ c = '-') : isSpace c = false := by
  simp [isSpace, ne_of_startsNumber (d := ' ') h, ne_of_startsNumber (d := '\t') h,
    ne_of_startsNumber (d := '\n') h, ne_of_startsNumber (d := '\r') h]

/-- The text of a value starts with no blank and does not close an array. -/
theorem exists_render_eq (h : j.WellFormed) (layout : Layout) :
    ∃ c cs, render layout j = c :: cs ∧ isSpace c = false ∧ c ≠ ']' := by
  cases j with
  | null => exact ⟨_, _, rfl, rfl, by decide⟩
  | bool value => cases value <;> exact ⟨_, _, rfl, rfl, by decide⟩
  | number literal =>
    rw [WellFormed] at h
    obtain ⟨c, cs, hliteral, hhead⟩ := h.exists_cons
    exact ⟨c, cs, hliteral, isSpace_of_startsNumber hhead,
      ne_of_startsNumber hhead (by decide)⟩
  | string literal => exact ⟨_, _, rfl, rfl, by decide⟩
  | array items => cases items <;> exact ⟨_, _, rfl, rfl, by decide⟩
  | object members => cases members <;> exact ⟨_, _, rfl, rfl, by decide⟩

theorem head_skipSpace_render (h : j.WellFormed) (layout : Layout) :
    (skipSpace (render layout j ++ cs)).head? ≠ some ']' := by
  obtain ⟨c, text, htext, hspace, hne⟩ := exists_render_eq h layout
  rw [htext, List.cons_append, skipSpace_cons hspace]
  exact fun heq => hne (Option.some.inj heq)

theorem render_length_pos (h : j.WellFormed) (layout : Layout) : 0 < (render layout j).length := by
  obtain ⟨c, cs, htext, -⟩ := exists_render_eq h layout
  rw [htext]
  exact Nat.succ_pos _

/-! ### Steps of the reader -/

/-- Blanks in front of what is read do not count. -/
theorem readValue_congr {cs' : List Char} (h : skipSpace cs = skipSpace cs') (fuel : Nat) :
    readValue fuel cs = readValue fuel cs' := by
  cases fuel with
  | zero => rfl
  | succ fuel => rw [readValue, readValue, h]

theorem readItems_congr {cs' : List Char} (h : skipSpace cs = skipSpace cs') (fuel : Nat) :
    readItems fuel cs = readItems fuel cs' := by
  cases fuel with
  | zero => rfl
  | succ fuel => rw [readItems, readItems, readValue_congr h]

theorem readMembers_congr {cs' : List Char} (h : skipSpace cs = skipSpace cs') (fuel : Nat) :
    readMembers fuel cs = readMembers fuel cs' := by
  cases fuel with
  | zero => rfl
  | succ fuel => rw [readMembers, readMembers, h]

theorem readValue_number {literal : List Char} (h : IsNumber literal) (hstop : Stops rest) :
    readValue (fuel + 1) (literal ++ rest) = some (number literal, rest) := by
  have hread := h rest hstop
  obtain ⟨c, cs, rfl, hhead⟩ := h.exists_cons
  rw [List.cons_append] at hread
  rw [readValue, List.cons_append, skipSpace_cons (isSpace_of_startsNumber hhead)]
  split
  case h_1 | h_2 | h_3 | h_4 | h_5 | h_6 =>
    rename_i heq
    exact absurd (List.cons.inj heq).1 (ne_of_startsNumber hhead (by decide))
  case h_7 =>
    rw [hread]
    rfl

theorem readValue_string {literal : List Char} (h : IsString literal) :
    readValue (fuel + 1) ('"' :: literal ++ '"' :: rest) = some (string literal, rest) := by
  show (readString (literal ++ '"' :: rest)).map _ = _
  rw [h rest]
  rfl

theorem readValue_array (h : (skipSpace cs).head? ≠ some ']') :
    readValue (fuel + 1) ('[' :: cs) =
      (readItems fuel cs).map fun (items, rest) => (array items, rest) := by
  rw [← readItems_congr (skipSpace_skipSpace cs), readValue, skipSpace_cons (by decide)]
  simp only
  split
  · rename_i heq
    rw [heq] at h
    exact absurd rfl h
  · rfl

theorem readValue_object (h : (skipSpace cs).head? ≠ some '}') :
    readValue (fuel + 1) ('{' :: cs) =
      (readMembers fuel cs).map fun (members, rest) => (object members, rest) := by
  rw [← readMembers_congr (skipSpace_skipSpace cs), readValue, skipSpace_cons (by decide)]
  simp only
  split
  · rename_i heq
    rw [heq] at h
    exact absurd rfl h
  · rfl

theorem readItems_item (h : readValue fuel cs = some (item, behind)) :
    readItems (fuel + 1) cs =
      match skipSpace behind with
      | ',' :: text => (readItems fuel text).map fun (items, rest) => (item :: items, rest)
      | ']' :: rest => some ([item], rest)
      | _ => none := by
  rw [readItems, h]
  simp only [Option.bind_eq_bind, Option.bind_some, Option.map_eq_bind]
  rfl

theorem readMembers_member (hkey : IsString key) (h : readValue fuel cs = some (value, behind)) :
    readMembers (fuel + 1) ('"' :: (key ++ '"' :: (layout.colon ++ cs))) =
      match skipSpace behind with
      | ',' :: text =>
        (readMembers fuel text).map fun (members, rest) => ((key, value) :: members, rest)
      | '}' :: rest => some ([(key, value)], rest)
      | _ => none := by
  obtain ⟨text, hcolon, htext⟩ := skipSpace_colon_append layout cs
  have hread := hkey (layout.colon ++ cs)
  rw [← readValue_congr htext] at h
  rw [readMembers, skipSpace_cons (by decide)]
  simp only [hread, hcolon, h, Option.bind_eq_bind, Option.bind_some, Option.map_eq_bind]
  rfl

/-! ### Reading what was written -/

/-- What is read of what was written if the reader may take `fuel` steps. What comes behind an array
or an object closes it. -/
structure Reads (fuel : Nat) : Prop where
  value : ∀ {j : Json} {layout : Layout} {rest : List Char}, j.WellFormed → Stops rest →
    2 * (render layout j).length ≤ fuel →
    readValue fuel (render layout j ++ rest) = some (j, rest)
  items : ∀ {item : Json} {items : List Json} {layout : Layout} {behind rest : List Char},
    ItemsWellFormed (item :: items) → Stops behind → skipSpace behind = ']' :: rest →
    2 * (render layout item ++ renderItems layout items).length < fuel →
    readItems fuel (render layout item ++ (renderItems layout items ++ behind)) =
      some (item :: items, rest)
  members : ∀ {key : List Char} {value : Json} {members : List (List Char × Json)}
    {layout : Layout} {behind rest : List Char},
    MembersWellFormed ((key, value) :: members) → Stops behind → skipSpace behind = '}' :: rest →
    2 * (render layout value ++ renderMembers layout members).length < fuel →
    readMembers fuel ('"' :: (key ++ '"' :: (layout.colon ++
      (render layout value ++ (renderMembers layout members ++ behind))))) =
      some ((key, value) :: members, rest)

theorem stops_renderItems_append (layout : Layout) (items : List Json) (hstop : Stops behind) :
    Stops (renderItems layout items ++ behind) := by
  cases items with
  | nil => exact hstop
  | cons item items => simp [renderItems, Stops]

theorem stops_renderMembers_append (layout : Layout) (members : List (List Char × Json))
    (hstop : Stops behind) : Stops (renderMembers layout members ++ behind) := by
  cases members with
  | nil => exact hstop
  | cons member members => simp [renderMembers, Stops]

namespace Reads

theorem items_succ (h : Reads fuel) (hitems : ItemsWellFormed (item :: items))
    (hstop : Stops behind) (hbehind : skipSpace behind = ']' :: rest)
    (hfuel : 2 * (render layout item ++ renderItems layout items).length < fuel + 1) :
    readItems (fuel + 1) (render layout item ++ (renderItems layout items ++ behind)) =
      some (item :: items, rest) := by
  obtain ⟨hitem, hitems⟩ := hitems
  rw [List.length_append] at hfuel
  rw [readItems_item (h.value hitem (stops_renderItems_append layout items hstop) (by omega))]
  cases items with
  | nil => simp only [renderItems, List.nil_append, hbehind]
  | cons next items =>
    have hpos := render_length_pos hitem layout
    have hnext : readItems fuel (render layout next ++ (renderItems layout items ++ behind)) =
        some (next :: items, rest) := by
      refine h.items hitems hstop hbehind ?_
      rw [renderItems, List.length_append, List.length_cons] at hfuel
      omega
    rw [renderItems, List.append_assoc, List.append_assoc, List.cons_append,
      skipSpace_cons (by decide)]
    show (readItems fuel (layout.lineBreak ++ _)).map _ = _
    rw [readItems_congr (skipSpace_lineBreak_append layout _), hnext]
    rfl

theorem members_succ (h : Reads fuel) (hmembers : MembersWellFormed ((key, value) :: members))
    (hstop : Stops behind) (hbehind : skipSpace behind = '}' :: rest)
    (hfuel : 2 * (render layout value ++ renderMembers layout members).length < fuel + 1) :
    readMembers (fuel + 1) ('"' :: (key ++ '"' :: (layout.colon ++
      (render layout value ++ (renderMembers layout members ++ behind))))) =
      some ((key, value) :: members, rest) := by
  obtain ⟨hkey, hvalue, hmembers⟩ := hmembers
  rw [List.length_append] at hfuel
  rw [readMembers_member hkey
    (h.value hvalue (stops_renderMembers_append layout members hstop) (by omega))]
  cases members with
  | nil => simp only [renderMembers, List.nil_append, hbehind]
  | cons member members =>
    obtain ⟨next, item⟩ := member
    have hpos := render_length_pos hvalue layout
    have hnext : readMembers fuel ('"' :: (next ++ '"' :: (layout.colon ++
        (render layout item ++ (renderMembers layout members ++ behind))))) =
        some ((next, item) :: members, rest) := by
      refine h.members hmembers hstop hbehind ?_
      simp only [renderMembers, List.length_append, List.length_cons] at hfuel ⊢
      omega
    simp only [renderMembers, List.append_assoc, List.cons_append]
    rw [skipSpace_cons (by decide)]
    show (readMembers fuel (layout.lineBreak ++ _)).map _ = _
    rw [readMembers_congr (skipSpace_lineBreak_append layout _), hnext]
    rfl

theorem array_succ (h : Reads fuel) (hitems : ItemsWellFormed (item :: items))
    (hfuel : 2 * (render layout (array (item :: items))).length ≤ fuel + 1) :
    readValue (fuel + 1) (render layout (array (item :: items)) ++ rest) =
      some (array (item :: items), rest) := by
  have hread : readItems fuel (render layout.deeper item ++
      (renderItems layout.deeper items ++ (layout.lineBreak ++ ']' :: rest))) =
      some (item :: items, rest) := by
    refine h.items hitems (stops_lineBreak_append (by simp [Stops])) ?_ ?_
    · rw [skipSpace_lineBreak_append, skipSpace_cons (by decide)]
    · simp only [render, List.length_append, List.length_cons] at hfuel ⊢
      omega
  simp only [render, List.append_assoc, List.cons_append, List.nil_append]
  rw [readValue_array]
  · rw [readItems_congr (skipSpace_lineBreak_append _ _), hread]
    rfl
  · rw [skipSpace_lineBreak_append]
    exact head_skipSpace_render hitems.1 layout.deeper

theorem object_succ (h : Reads fuel) (hmembers : MembersWellFormed ((key, value) :: members))
    (hfuel : 2 * (render layout (object ((key, value) :: members))).length ≤ fuel + 1) :
    readValue (fuel + 1) (render layout (object ((key, value) :: members)) ++ rest) =
      some (object ((key, value) :: members), rest) := by
  have hread : readMembers fuel ('"' :: (key ++ '"' :: (layout.deeper.colon ++
      (render layout.deeper value ++
        (renderMembers layout.deeper members ++ (layout.lineBreak ++ '}' :: rest)))))) =
      some ((key, value) :: members, rest) := by
    refine h.members hmembers (stops_lineBreak_append (by simp [Stops])) ?_ ?_
    · rw [skipSpace_lineBreak_append, skipSpace_cons (by decide)]
    · simp only [render, List.length_append, List.length_cons] at hfuel ⊢
      omega
  rw [colon_deeper] at hread
  simp only [render, List.append_assoc, List.cons_append, List.nil_append]
  rw [readValue_object]
  · rw [readMembers_congr (skipSpace_lineBreak_append _ _), hread]
    rfl
  · rw [skipSpace_lineBreak_append, skipSpace_cons (by decide)]
    simp

theorem value_succ (h : Reads fuel) (hj : j.WellFormed) (hstop : Stops rest)
    (hfuel : 2 * (render layout j).length ≤ fuel + 1) :
    readValue (fuel + 1) (render layout j ++ rest) = some (j, rest) := by
  cases j with
  | null => rfl
  | bool value => cases value <;> rfl
  | number literal =>
    rw [WellFormed] at hj
    exact readValue_number hj hstop
  | string literal =>
    rw [WellFormed] at hj
    rw [render, List.append_assoc]
    exact readValue_string hj
  | array items =>
    rw [WellFormed] at hj
    cases items with
    | nil => rfl
    | cons item items => exact h.array_succ hj hfuel
  | object members =>
    rw [WellFormed] at hj
    cases members with
    | nil => rfl
    | cons member members => exact h.object_succ hj hfuel

end Reads

/-- What was written is read. -/
theorem reads (fuel : Nat) : Reads fuel := by
  induction fuel with
  | zero =>
    refine ⟨?_, ?_, ?_⟩
    · intro j layout rest hj _ hfuel
      have hpos := render_length_pos hj layout
      omega
    · intro item items layout behind rest _ _ _ hfuel
      exact absurd hfuel (Nat.not_lt_zero _)
    · intro key value members layout behind rest _ _ _ hfuel
      exact absurd hfuel (Nat.not_lt_zero _)
  | succ fuel ih => exact ⟨ih.value_succ, ih.items_succ, ih.members_succ⟩

/-- A value is read back from its text. -/
theorem parse?_render (h : j.WellFormed) (layout : Layout) :
    parse? (render layout j) = some j := by
  have hread : readValue (2 * (render layout j).length + 1) (render layout j ++ []) =
      some (j, []) := (reads _).value h (by simp [Stops]) (Nat.le_succ _)
  rw [List.append_nil] at hread
  rw [parse?, hread]
  rfl

/-- The text of a value tells the value. -/
theorem render_injective {j' : Json} (h : j.WellFormed) (h' : j'.WellFormed)
    (heq : render layout j = render layout j') : j = j' := by
  have hread := parse?_render h layout
  rw [heq, parse?_render h' layout] at hread
  exact (Option.some.inj hread).symm

/-! ### Values of a program -/

theorem isString_escape (text : List Char) : IsString (Literal.escape text) :=
  readString_escape_append text

theorem wellFormed_ofText (text : String) : (ofText text).WellFormed :=
  isString_escape text.toList

theorem wellFormed_ofNat (n : Nat) : (ofNat n).WellFormed := isNumber_toDigits n

theorem wellFormed_ofText? (text : Option String) : (ofText? text).WellFormed := by
  cases text with
  | none => trivial
  | some text => exact wellFormed_ofText text

theorem itemsWellFormed_iff : ItemsWellFormed items ↔ ∀ item ∈ items, item.WellFormed := by
  induction items with
  | nil => simp [ItemsWellFormed]
  | cons item items ih => simp [ItemsWellFormed, ih]

theorem wellFormed_array (h : ∀ item ∈ items, item.WellFormed) : (array items).WellFormed :=
  itemsWellFormed_iff.2 h

theorem wellFormed_record {fields : List (String × Json)}
    (h : ∀ field ∈ fields, field.2.WellFormed) : (record fields).WellFormed := by
  show MembersWellFormed _
  induction fields with
  | nil => trivial
  | cons field fields ih =>
    obtain ⟨hfield, hfields⟩ := List.forall_mem_cons.1 h
    exact ⟨isString_escape _, hfield, ih hfields⟩

@[simp] theorem ofText_inj {text text' : String} : ofText text = ofText text' ↔ text = text' := by
  rw [ofText, ofText, string.injEq, Literal.escape_injective.eq_iff, String.toList_inj]

@[simp] theorem ofNat_inj {m n : Nat} : ofNat m = ofNat n ↔ m = n := by
  rw [ofNat, ofNat, number.injEq]
  refine ⟨fun h => ?_, congrArg _⟩
  rw [← Nat.ofDigitChars_ten_toDigits (n := m), h, Nat.ofDigitChars_ten_toDigits]

@[simp] theorem ofText?_inj {text text' : Option String} :
    ofText? text = ofText? text' ↔ text = text' := by
  cases text <;> cases text' <;> simp [ofText?] <;> simp [ofText]

end EmbedQuery.Json
