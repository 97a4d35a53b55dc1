import EmbedQuery.Proofs.Token.Splitting
import EmbedQuery.Report

/-!
# Nothing is lost between the tokens

The tokens of a query go up and do not overlap, what lies outside them is blank, and the texts they
cover, with the blanks between them, make up the query (`Lossless`). Each of them is a token of its
own: its text alone is read as this token, and what follows does not go on with it.

A lexer may be asked for one token or for all that are left, in any order. The tokens it gives are
those of the query from the first on, and behind the last it gives the end of the input each time
(`Lexer.run_begins`).
-/

namespace EmbedQuery

variable {n : Nat} {c : Char} {cs front back : List Char} {x : Lexeme} {ts : List Token}

/-! ### What a token covers -/

/-- A span that begins behind `front` and is as long as `text` covers `text`. -/
theorem Span.text_eq {query : String} (front text : List Char) {back : List Char}
    (h : query.toList = front ++ (text ++ back)) :
    Span.text ⟨byteLength front, byteLength front + byteLength text⟩ query =
      some (String.ofList text) := by
  have hlength : Span.length? ⟨byteLength front, byteLength front + byteLength text⟩ =
      some (byteLength text) := by
    simp [Span.length?]
  rw [Span.text, hlength, h]
  simp [splitAtByte_append]

theorem Lexeme.Formed.byteLength_pos (hx : x.Formed) : 0 < byteLength x.text := by
  obtain ⟨c, cs, htext, -, -⟩ := hx.read (.nil _)
  have hpos := c.utf8Size_pos
  rw [htext, byteLength_cons]
  omega

/-- The text of a lexeme alone is read as the lexeme. -/
theorem Lexeme.Formed.tokenize_text (hx : x.Formed) :
    tokenize (String.ofList x.text) =
      [⟨x.kind, ⟨0, byteLength x.text⟩⟩, ⟨.eof, .point (byteLength x.text)⟩] := by
  have hsplits : Splits 0 ([] ++ (x.text ++ [])) [⟨x.kind, ⟨0 + 0, 0 + 0 + byteLength x.text⟩⟩] :=
    .token (by simp) hx (.nil _) (.blanks (by simp))
  simp only [List.nil_append, List.append_nil, Nat.zero_add] at hsplits
  rw [tokenize, Lexer.tokenize, Lexer.ofQuery, String.toList_ofList, hsplits.tokens_eq]
  simp [Lexer.eofToken]

/-- A character of two texts, one behind the other, is in the first or in the second. -/
theorem mem_or_exists_of_append_eq {text : List Char} (h : text ++ cs = front ++ c :: back) :
    (c ∈ text ∧ byteLength front < byteLength text) ∨
      ∃ before, front = text ++ before ∧ cs = before ++ c :: back := by
  rcases List.append_eq_append_iff.1 h with ⟨before, rfl, hcs⟩ | ⟨after, rfl, hback⟩
  · exact Or.inr ⟨before, rfl, hcs⟩
  · cases after with
    | nil => exact Or.inr ⟨[], by simp, by simpa using hback.symm⟩
    | cons d after =>
      obtain ⟨rfl, -⟩ := List.cons.inj hback
      have hpos := c.utf8Size_pos
      refine Or.inl ⟨by simp, ?_⟩
      rw [byteLength_append, byteLength_cons]
      omega

namespace Splits

/-- The tokens of a text have their places in it. -/
theorem bounds (h : Splits n cs ts) :
    ∀ t ∈ ts, n ≤ t.span.start ∧ t.span.start < t.span.stop ∧ t.span.stop ≤ n + byteLength cs := by
  induction h with
  | blanks => simp
  | token _ hx _ _ ih =>
    have hpos := hx.byteLength_pos
    refine List.forall_mem_cons.2 ⟨?_, fun t ht => ?_⟩
    · simp only [byteLength_append]
      omega
    · have hbounds := ih t ht
      simp only [byteLength_append]
      omega

/-- The tokens of a text go up and do not overlap. -/
theorem pairwise (h : Splits n cs ts) : ts.Pairwise fun s t => s.span.stop ≤ t.span.start := by
  induction h with
  | blanks => exact .nil
  | token _ _ _ hrest ih => exact .cons (fun t ht => (hrest.bounds t ht).1) ih

/-- Each token of a text is a lexeme of it, and nothing that follows goes on with the lexeme. -/
theorem exists_lexeme (h : Splits n cs ts) (hn : n = byteLength front) :
    ∀ t ∈ ts, ∃ (before : List Char) (x : Lexeme) (rest : List Char),
      front ++ cs = before ++ (x.text ++ rest) ∧ x.Formed ∧ Lexeme.Longest x.text rest ∧
        t = ⟨x.kind, ⟨byteLength before, byteLength before + byteLength x.text⟩⟩ := by
  induction h generalizing front with
  | blanks => simp
  | @token n gap rest x ts _ hx hlongest _ ih =>
    obtain rfl := hn
    refine List.forall_mem_cons.2 ⟨⟨front ++ gap, x, rest, ?_, hx, hlongest, ?_⟩, ?_⟩
    · simp
    · simp
    · have hrest := @ih (front ++ (gap ++ x.text)) (by simp [Nat.add_assoc])
      simpa using hrest

/-- What is not blank belongs to a token. -/
theorem covers (h : Splits n cs ts) (hcs : cs = front ++ c :: back)
    (hc : Text.isBlank c = false) :
    ∃ t ∈ ts, t.span.start ≤ n + byteLength front ∧ n + byteLength front < t.span.stop := by
  induction h generalizing front with
  | blanks hgap =>
    have hblank := hgap c (by simp [hcs])
    rw [hc] at hblank
    cases hblank
  | @token n gap rest x ts hgap _ _ _ ih =>
    rcases mem_or_exists_of_append_eq hcs with ⟨hmem, -⟩ | ⟨before, rfl, htext⟩
    · have hblank := hgap c hmem
      rw [hc] at hblank
      cases hblank
    simp only [byteLength_append]
    rcases mem_or_exists_of_append_eq htext with ⟨-, hlt⟩ | ⟨before, rfl, hrest⟩
    · exact ⟨_, List.mem_cons_self, by show n + _ ≤ _; omega, by show _ < n + _ + _; omega⟩
    · obtain ⟨t, ht, hstart, hstop⟩ := ih hrest
      simp only [byteLength_append]
      exact ⟨t, List.mem_cons_of_mem _ ht, by omega, by omega⟩

/-- Blanks and the texts that the tokens cover, in turn, make up the text. -/
theorem rebuilt {query : String} (h : Splits n cs ts) (hn : n = byteLength front)
    (hquery : query.toList = front ++ cs) :
    ∃ (gaps : List String) (last : String), gaps.length = ts.length ∧
      (∀ gap ∈ gaps ++ [last], ∀ c ∈ gap.toList, Text.isBlank c = true) ∧
      (gaps.zipWith (fun gap t => gap ++ (t.span.text query).getD "") ts).flatMap String.toList ++
        last.toList = cs := by
  induction h generalizing front with
  | @blanks n gap hgap => exact ⟨[], String.ofList gap, rfl, by simpa using hgap, by simp⟩
  | @token n gap rest x ts hgap _ _ _ ih =>
    obtain rfl := hn
    obtain ⟨gaps, last, hlength, hblank, htext⟩ := @ih (front ++ (gap ++ x.text))
      (by simp [Nat.add_assoc]) (by simp [hquery])
    refine ⟨String.ofList gap :: gaps, last, by simp [hlength], ?_, ?_⟩
    · rw [List.cons_append]
      exact List.forall_mem_cons.2 ⟨by simpa using hgap, hblank⟩
    · have hcovered := Span.text_eq (front ++ gap) x.text (by simpa using hquery)
      rw [byteLength_append] at hcovered
      rw [List.zipWith_cons_cons, List.flatMap_cons, List.append_assoc, htext, hcovered]
      simp

end Splits

/-! ### A lexer that is asked again -/

namespace Lexer

variable {l l' : Lexer} {t : Token}

/-- What a lexer can be asked for. -/
inductive Step
  /-- The next token. -/
  | next
  /-- All tokens that are left. -/
  | tokenize

/-- The tokens a lexer gives when it is asked, and the lexer behind them. -/
def step (l : Lexer) : Step → List Token × Lexer
  | .next => ([l.next.1], l.next.2)
  | .tokenize => l.tokenize

/-- The tokens a lexer gives when it is asked several times. -/
def run (l : Lexer) : List Step → List Token
  | [] => []
  | step :: steps => (l.step step).1 ++ (l.step step).2.run steps

theorem eofToken_atEnd (l : Lexer) : l.atEnd.eofToken = l.eofToken := by
  simp [eofToken, atEnd]

theorem eofToken_skipBlanks (l : Lexer) : l.skipBlanks.eofToken = l.eofToken := by
  have htext : l.rest.takeWhile Text.isBlank ++ l.rest.dropWhile Text.isBlank = l.rest :=
    List.takeWhile_append_dropWhile
  rw [eofToken, eofToken, skipBlanks, Nat.add_assoc, ← byteLength_append, htext]

theorem eofToken_of_next? (h : l.next? = some (t, l')) : l'.eofToken = l.eofToken := by
  cases hrest : l.rest.dropWhile Text.isBlank with
  | nil =>
    rw [next?_of_nil hrest] at h
    cases h
  | cons c cs =>
    have htext : l.rest.takeWhile Text.isBlank ++
        ((Lexeme.read c cs).1.text ++ (Lexeme.read c cs).2) = l.rest := by
      rw [Lexeme.read_append, ← hrest, List.takeWhile_append_dropWhile]
    have hlength := congrArg byteLength htext
    rw [byteLength_append, byteLength_append] at hlength
    rw [next?_eq hrest] at h
    obtain ⟨-, rfl⟩ := Prod.mk.inj (Option.some.inj h)
    simp only [eofToken, ← hlength, Nat.add_assoc]

/-- Asked for the next token, a lexer takes the first of its tokens, or gives the end of the input
and has no tokens left. -/
theorem step_next (l : Lexer) :
    ∃ t l', l.step .next = ([t], l') ∧ l'.eofToken = l.eofToken ∧
      (l.tokens = t :: l'.tokens ∨ l.tokens = [] ∧ l'.tokens = [] ∧ t = l.eofToken) := by
  cases hrest : l.rest.dropWhile Text.isBlank with
  | nil =>
    have hnone : l.next? = none := next?_of_nil hrest
    have hskip : l.skipBlanks.rest = [] := hrest
    have hskipped : l.skipBlanks.tokens = [] := by
      refine tokens_of_none (next?_of_nil ?_)
      rw [hskip]
      rfl
    refine ⟨l.eofToken, l.skipBlanks, ?_, l.eofToken_skipBlanks,
      Or.inr ⟨tokens_of_none hnone, hskipped, rfl⟩⟩
    rw [step, next, hnone]
    rfl
  | cons c cs =>
    have hsome := next?_eq hrest
    refine ⟨_, _, ?_, eofToken_of_next? hsome, Or.inl (tokens_of_some hsome)⟩
    rw [step, next, hsome]
    rfl

theorem tokens_atEnd (l : Lexer) : l.atEnd.tokens = [] := tokens_of_none (next?_of_nil rfl)

/-- However a lexer is asked, it gives its tokens from the first on, and then the end of the input
each time. -/
theorem run_begins (l : Lexer) (steps : List Step) :
    ∃ n, l.run steps <+: l.tokens ++ List.replicate n l.eofToken := by
  induction steps generalizing l with
  | nil => exact ⟨0, List.nil_prefix⟩
  | cons step steps ih =>
    cases step with
    | next =>
      obtain ⟨t, l', hstep, heof, htokens⟩ := l.step_next
      obtain ⟨n, hn⟩ := ih l'
      rw [heof] at hn
      rw [run, hstep]
      rcases htokens with htokens | ⟨htokens, htokens', rfl⟩
      · refine ⟨n, ?_⟩
        rw [htokens]
        exact List.cons_prefix_cons.2 ⟨rfl, hn⟩
      · refine ⟨n + 1, ?_⟩
        rw [htokens'] at hn
        rw [htokens]
        exact List.cons_prefix_cons.2 ⟨rfl, hn⟩
    | tokenize =>
      obtain ⟨n, hn⟩ := ih l.atEnd
      rw [tokens_atEnd, eofToken_atEnd, List.nil_append] at hn
      refine ⟨n + 1, ?_⟩
      show l.tokens ++ [l.eofToken] ++ l.atEnd.run steps <+: _
      rw [List.append_assoc]
      exact (List.prefix_append_right_inj _).2 (List.cons_prefix_cons.2 ⟨rfl, hn⟩)

/-- A lexer gives a token each time it is asked, and all that are left when it is asked for them. -/
theorem length_run (l : Lexer) (steps : List Step) :
    steps.length ≤ (l.run steps).length ∧
      (.tokenize ∈ steps → l.tokens.length < (l.run steps).length) := by
  induction steps generalizing l with
  | nil => simp
  | cons step steps ih =>
    cases step with
    | next =>
      obtain ⟨t, l', hstep, -, htokens⟩ := l.step_next
      obtain ⟨hlength, hall⟩ := ih l'
      have hle : l.tokens.length ≤ l'.tokens.length + 1 := by
        rcases htokens with htokens | ⟨htokens, -, -⟩ <;> simp [htokens]
      rw [run, hstep]
      simp only [List.singleton_append, List.length_cons]
      refine ⟨by omega, fun hmem => ?_⟩
      have hlt := hall (by simpa using hmem)
      omega
    | tokenize =>
      obtain ⟨hlength, -⟩ := ih l.atEnd
      have hrun : l.run (.tokenize :: steps) = l.tokens ++ [l.eofToken] ++ l.atEnd.run steps := rfl
      rw [hrun, List.length_append, List.length_append, List.length_cons, List.length_singleton]
      exact ⟨by omega, fun _ => by omega⟩

end Lexer

/-! ### Queries -/

/-- Nothing of a query is lost in its tokens. -/
structure Lossless (query : String) : Prop where
  /-- Only the last token is the end of the input, and it stands there. -/
  last : ∃ tokens, tokenize query = tokens ++ [⟨.eof, .point (byteLength query.toList)⟩] ∧
    ∀ t ∈ tokens, t.kind ≠ .eof ∧ t.span.start < t.span.stop
  /-- The tokens go up and do not overlap. -/
  increasing : (tokenize query).Pairwise fun s t => s.span.stop ≤ t.span.start
  /-- What is not blank belongs to a token. -/
  covers : ∀ front c back, query.toList = front ++ c :: back → Text.isBlank c = false →
    ∃ t ∈ tokenize query, t.span.start ≤ byteLength front ∧ byteLength front < t.span.stop
  /-- Blanks and the texts that are listed for the tokens, in turn, make up the query. -/
  rebuilt : ∃ gaps : List String, gaps.length = (tokenRows query).length ∧
    (∀ gap ∈ gaps, ∀ c ∈ gap.toList, Text.isBlank c = true) ∧
    String.join (gaps.zipWith (fun gap row => gap ++ row.text) (tokenRows query)) = query
  /-- A token begins and ends between characters; its text alone is read as this token, and what
  follows does not go on with it. -/
  separate : ∀ t ∈ tokenize query, ∃ front text back,
    query.toList = front ++ (text ++ back) ∧
      t.span = ⟨byteLength front, byteLength front + byteLength text⟩ ∧
      t.span.text query = some (String.ofList text) ∧
      tokenize (String.ofList text) =
        (if t.kind = .eof then [] else [⟨t.kind, ⟨0, byteLength text⟩⟩]) ++
          [⟨.eof, .point (byteLength text)⟩] ∧
      Lexeme.Longest text back

/-- The tokens of a query are those of its lexer and the end of the input. -/
theorem tokenize_eq (query : String) :
    tokenize query =
      (Lexer.ofQuery query).tokens ++ [⟨.eof, .point (byteLength query.toList)⟩] := by
  rw [tokenize, Lexer.tokenize, Lexer.eofToken]
  simp [Lexer.ofQuery]

theorem lossless (query : String) : Lossless query := by
  have hsplits : Splits 0 query.toList (Lexer.ofQuery query).tokens :=
    (Lexer.ofQuery query).splits_tokens
  have hbounds := hsplits.bounds
  have hkind : ∀ t ∈ (Lexer.ofQuery query).tokens, t.kind ≠ .eof := by
    intro t ht heof
    have hmem := List.mem_map_of_mem (f := Token.kind) ht
    rw [map_kind_tokens, heof] at hmem
    exact isRead_of_mem_kindsOf .eof hmem
  have hquery : query.toList = query.toList ++ ([] ++ []) := by simp
  have hend : Span.text (.point (byteLength query.toList)) query = some "" :=
    Span.text_eq query.toList [] hquery
  refine ⟨⟨_, tokenize_eq query, fun t ht => ⟨hkind t ht, (hbounds t ht).2.1⟩⟩, ?_, ?_, ?_, ?_⟩
  · rw [tokenize_eq]
    refine List.pairwise_append.2 ⟨hsplits.pairwise, List.pairwise_singleton _ _, ?_⟩
    intro t ht u hu
    rw [List.mem_singleton.1 hu]
    simpa [Span.point] using (hbounds t ht).2.2
  · intro front c back hquery hc
    obtain ⟨t, ht, hstart, hstop⟩ := hsplits.covers hquery hc
    rw [Nat.zero_add] at hstart hstop
    rw [tokenize_eq]
    exact ⟨t, List.mem_append_left _ ht, hstart, hstop⟩
  · obtain ⟨gaps, last, hlength, hblank, htext⟩ :=
      hsplits.rebuilt byteLength_nil.symm (List.nil_append _).symm
    refine ⟨gaps ++ [last], by simp [tokenRows, tokenize_eq, hlength], hblank, ?_⟩
    rw [← String.toList_inj, String.toList_join, tokenRows, List.zipWith_map_right, tokenize_eq,
      List.zipWith_append hlength, List.flatMap_append]
    simpa [hend] using htext
  · intro t ht
    rw [tokenize_eq] at ht
    rcases List.mem_append.1 ht with ht | ht
    · obtain ⟨front, x, back, hquery, hx, hlongest, rfl⟩ :=
        hsplits.exists_lexeme byteLength_nil.symm t ht
      refine ⟨front, x.text, back, hquery, rfl, Span.text_eq _ _ hquery, ?_, hlongest⟩
      rw [hx.tokenize_text, if_neg (hkind _ ht)]
      rfl
    · rw [List.mem_singleton.1 ht]
      have hempty : tokenize "" = [⟨.eof, .point 0⟩] := by decide +kernel
      exact ⟨query.toList, [], [], hquery, rfl, hend, hempty, .nil _⟩

/-- Nothing of a query is lost in its tokens, and they are what a lexer gives however it is asked:
from the first on, all of them when it is asked often enough, and the end of the input ever
after. -/
theorem tokenize_lossless (query : String) :
    Lossless query ∧ ∀ steps : List Lexer.Step,
      (∃ n, (Lexer.ofQuery query).run steps <+:
        tokenize query ++ List.replicate n ⟨.eof, .point (byteLength query.toList)⟩) ∧
      (.tokenize ∈ steps ∨ (tokenize query).length ≤ steps.length →
        tokenize query <+: (Lexer.ofQuery query).run steps) := by
  refine ⟨lossless query, fun steps => ?_⟩
  have heof : (Lexer.ofQuery query).eofToken = ⟨.eof, .point (byteLength query.toList)⟩ := by
    rw [Lexer.eofToken]
    simp [Lexer.ofQuery]
  obtain ⟨n, hn⟩ := (Lexer.ofQuery query).run_begins steps
  obtain ⟨hlength, hall⟩ := (Lexer.ofQuery query).length_run steps
  rw [heof] at hn
  have hstream : (Lexer.ofQuery query).run steps <+:
      tokenize query ++ List.replicate n ⟨.eof, .point (byteLength query.toList)⟩ := by
    rw [tokenize_eq, List.append_assoc]
    refine hn.trans ((List.prefix_append_right_inj _).2 ?_)
    exact ⟨[⟨.eof, .point (byteLength query.toList)⟩], List.replicate_succ'.symm⟩
  refine ⟨⟨n, hstream⟩, fun henough => ?_⟩
  refine List.prefix_of_prefix_length_le (List.prefix_append _ _) hstream ?_
  have htokens : (tokenize query).length = (Lexer.ofQuery query).tokens.length + 1 := by
    simp [tokenize_eq]
  rcases henough with hmem | hle
  · have hlt := hall hmem
    omega
  · omega

end EmbedQuery
