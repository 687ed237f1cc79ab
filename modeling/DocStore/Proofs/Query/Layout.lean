import DocStore.Proofs.Query.Decidable
import DocStore.Proofs.Query.Placement
import DocStore.Proofs.Query.Standalone

/-!
# Layout does not change meaning

A text is laid out anew by taking the raw texts of its tokens in order
and setting them apart with blanks, as many and of whatever kind
(`LaidOut`). The lexemes are the same then, since each of them stands
alone (`TokenList.scan_of_laidOut`), and only their places differ; these
play no part in parsing (`readQuery_agrees`). So the two texts are
parsed to the same query, or refused for the same reason
(`parse_laidOut`).
-/

namespace DocStore

/-- Words in order, with blanks before, between and behind them; behind
a word there is at least one, unless the word is the last. -/
inductive LaidOut : List (List Char) → List Char → Prop where
  | blank (gap : List Char) (hgap : gap.all Text.isBlank = true) : LaidOut [] gap
  | last (gap : List Char) {word : List Char} (hgap : gap.all Text.isBlank = true) :
      LaidOut [word] (gap ++ word)
  | word (gap : List Char) {word rest : List Char} {b : Char} {words : List (List Char)}
      (hgap : gap.all Text.isBlank = true) (hb : Text.isBlank b = true)
      (h : LaidOut words rest) : LaidOut (word :: words) (gap ++ (word ++ b :: rest))

/-! ## Scanning -/

namespace TokenList

open Lexeme

/-- The tokens of a text can be read wherever blanks set them apart. By
induction on the text, passing over what belongs to the lexeme before. -/
theorem standalone_of_scan {cs : List Char} {p : Position} {skip : Nat} {ts : TokenList}
    (h : scan p skip cs = .ok ts) : ∀ t ∈ ts.tokens, t.lexeme.Standalone := by
  induction cs generalizing p skip ts with
  | nil =>
      obtain rfl := Except.ok.inj h
      intro t ht
      cases ht
  | cons c rest ih =>
      cases skip with
      | succ skip => exact ih h
      | zero =>
          rcases scan_cons_cases h with ⟨-, hrest⟩ | ⟨l, us, hblank, hread, hrest, rfl⟩
          · exact ih hrest
          · intro t ht
            rcases List.mem_cons.mp ht with rfl | ht
            · have hl := standalone_of_read hblank hread
              simpa [Token.lexeme] using hl
            · exact ih hrest t ht

/-- A lexeme behind blanks becomes a token if it is set apart from what
follows. -/
theorem scan_gap_append {l : Lexeme} (hl : l.Standalone) {gap after : List Char}
    (hgap : gap.all Text.isBlank = true) (hafter : StartsBlank after) (p : Position) :
    ∃ q p', scan p 0 (gap ++ (l.text ++ after)) =
      (scan p' 0 after).map (cons ⟨l.kind, q, String.ofList l.text⟩) := by
  obtain ⟨c, cs, hcs, hblank, hread⟩ := hl
  exact ⟨_, _, (scan_gap hgap p _).trans (scan_of_read hcs hblank (hread after hafter) _)⟩

/-- The text is divided into the lexemes that are laid out. By induction
on the layout. -/
theorem scan_of_laidOut {words : List (List Char)} {cs : List Char} (h : LaidOut words cs)
    {ls : List Lexeme} (hwords : ls.map (·.text) = words) (hls : ∀ l ∈ ls, l.Standalone)
    (p : Position) : ∃ ts stop, scan p 0 cs = .ok ⟨ts, stop⟩ ∧ ts.map Token.lexeme = ls := by
  induction h generalizing ls p with
  | blank gap hgap =>
      obtain rfl := List.map_eq_nil_iff.mp hwords
      obtain ⟨stop, hscan⟩ := scan_of_blank hgap p
      exact ⟨[], stop, hscan, rfl⟩
  | @last gap _ hgap =>
      obtain ⟨l, rfl, rfl⟩ := List.map_eq_singleton_iff.mp hwords
      obtain ⟨q, p', hscan⟩ := scan_gap_append (hls l (List.mem_cons_self ..)) hgap
        startsBlank_nil p
      rw [List.append_nil] at hscan
      exact ⟨[_], p', hscan, by simp [Token.lexeme]⟩
  | @word gap _ rest b _ hgap hb _ ih =>
      obtain ⟨l, ls, rfl, rfl, hrest⟩ := List.map_eq_cons_iff.mp hwords
      obtain ⟨q, p', hscan⟩ := scan_gap_append (hls l (List.mem_cons_self ..)) hgap
        (startsBlank_cons hb rest) p
      have hls' : ∀ m ∈ ls, m.Standalone := fun m hm => hls m (List.mem_cons_of_mem l hm)
      obtain ⟨ts, stop, hts, hmap⟩ := ih hrest hls' (p'.next b)
      refine ⟨⟨l.kind, q, String.ofList l.text⟩ :: ts, stop, ?_, ?_⟩
      · rw [hscan, scan]
        simp only [hb, if_true, hts]
        rfl
      · simp [Token.lexeme, hmap]

/-- Without tokens, a text has blanks alone. -/
theorem isBlank_of_scan_nil {cs : List Char} {p stop : Position}
    (h : scan p 0 cs = .ok ⟨[], stop⟩) : cs.all Text.isBlank = true := by
  induction cs generalizing p with
  | nil => rfl
  | cons c rest ih =>
      rcases scan_cons_cases h with ⟨hblank, hrest⟩ | ⟨l, us, -, -, -, hcons⟩
      · rw [List.all_cons, hblank, ih hrest]
        rfl
      · cases hcons

theorem isBlankText_of_ofText {text : String} {tokens : List Token} {stop : Position}
    (h : ofText text = .ok ⟨tokens, stop⟩) : isBlankText text = tokens.isEmpty := by
  cases hblank : isBlankText text with
  | true =>
      obtain ⟨_, hscan⟩ := scan_of_blank hblank .start
      cases hscan.symm.trans h
      rfl
  | false =>
      cases tokens with
      | nil =>
          have hall : isBlankText text = true := isBlank_of_scan_nil h
          rw [hblank] at hall
          cases hall
      | cons t tokens => rfl

end TokenList

/-! ## Parsing -/

/-- Answers of the parser that differ in texts and places alone. -/
inductive SameAnswer : Except QueryRefusal Query → Except QueryRefusal Query → Prop where
  | accepted {q q' : Query} (h : q.unplaced = q'.unplaced) : SameAnswer (.ok q) (.ok q')
  | refused {e e' : ParseError} (hmessage : e.report.message = e'.report.message)
      (htoken : e.report.token = e'.report.token)
      (hsuggestion : e.report.suggestion = e'.report.suggestion) :
      SameAnswer (.error (.text e)) (.error (.text e'))
  | badParameters {e : ParameterError} :
      SameAnswer (.error (.parameters e)) (.error (.parameters e))

theorem sameAnswer_of_agrees {x y : Except ParseError Query}
    (h : Agrees (fun q q' => q.unplaced = q'.unplaced) x y) :
    SameAnswer (x.mapError .text) (y.mapError .text) := by
  cases h with
  | ok h => exact .accepted h
  | error hcause htoken =>
      refine .refused ?_ htoken ?_
      · simp only [ParseError.report, hcause, htoken]
      · simp only [ParseError.report, hcause]

/-- Parsing goes by the tokens of the text. -/
theorem parse_of_ofText {text : String} {tokens : List Token} {stop : Position}
    (htext : TokenList.ofText text = .ok ⟨tokens, stop⟩) (registry : Registry) (given : Json) :
    Query.parse registry text given =
      if tokens.isEmpty then
        .error (.text ⟨.emptyQuery, .start, none⟩)
      else
        (Parameters.normalize given).mapError .parameters >>= fun parameters =>
          (readQuery ⟨registry, parameters, [], stop⟩ text tokens).mapError .text := by
  rw [Query.parse, TokenList.isBlankText_of_ofText htext, htext]
  split <;> rfl

theorem parse_sameAnswer {text text' : String} {tokens tokens' : List Token}
    {stop stop' : Position} (htext : TokenList.ofText text = .ok ⟨tokens, stop⟩)
    (htext' : TokenList.ofText text' = .ok ⟨tokens', stop'⟩) (h : SameLexemes tokens tokens')
    (registry : Registry) (given : Json) :
    SameAnswer (Query.parse registry text given) (Query.parse registry text' given) := by
  have hempty : tokens.isEmpty = tokens'.isEmpty := by
    cases h <;> rfl
  rw [parse_of_ofText htext, parse_of_ofText htext', hempty]
  split
  · exact .refused rfl rfl rfl
  · cases Parameters.normalize given with
    | error e => exact .badParameters
    | ok parameters =>
        exact sameAnswer_of_agrees (readQuery_agrees ⟨registry, parameters, [], stop⟩ text text' h)

theorem map_values_of_sameLexemes {tokens tokens' : List Token} (h : SameLexemes tokens tokens') :
    tokens'.map (fun t => (t.kind, t.value, t.text)) =
      tokens.map fun t => (t.kind, t.value, t.text) := by
  induction h with
  | nil => rfl
  | cons ht _ ih =>
      rw [List.map_cons, List.map_cons, ih, Token.value, Token.value, ht.kind, ht.text]

/-- **Layout does not change meaning**: if the raw texts of the tokens
are set apart with any blanks, the new text has the same tokens, and
parsing gives the same query or refuses it with the same message, token
and suggestion. -/
theorem parse_laidOut {text text' : String} {tokens : List Token} {stop : Position}
    (htext : TokenList.ofText text = .ok ⟨tokens, stop⟩)
    (hlayout : LaidOut (tokens.map (·.text.toList)) text'.toList) :
    ∃ tokens' stop', TokenList.ofText text' = .ok ⟨tokens', stop'⟩ ∧
      tokens'.map (fun t => (t.kind, t.value, t.text)) =
        tokens.map (fun t => (t.kind, t.value, t.text)) ∧
      ∀ registry given, SameAnswer (Query.parse registry text given)
        (Query.parse registry text' given) := by
  have hstandalone : ∀ l ∈ tokens.map Token.lexeme, l.Standalone := by
    intro l hl
    obtain ⟨t, ht, rfl⟩ := List.mem_map.mp hl
    exact TokenList.standalone_of_scan htext t ht
  have hwords : (tokens.map Token.lexeme).map (·.text) = tokens.map (·.text.toList) := by
    rw [List.map_map]
    rfl
  obtain ⟨tokens', stop', htext', hmap⟩ :=
    TokenList.scan_of_laidOut hlayout hwords hstandalone .start
  have hsame := sameLexemes_of_map_eq hmap.symm
  exact ⟨tokens', stop', htext', map_values_of_sameLexemes hsame, fun registry given =>
    parse_sameAnswer htext htext' hsame registry given⟩

/-- A text with as few blanks as it can have, spread over lines. -/
theorem parse_laidOut_lines :
    let text := "SELECT*FROM c LIMIT 2"
    let text' := " SELECT *\nFROM c\n\tLIMIT 2\n"
    let words := ["SELECT".toList, ['*'], "FROM".toList, ['c'], "LIMIT".toList, ['2']]
    let query (text : String) : Query := ⟨text, .everything, "c", none, none, [], some 2⟩
    LaidOut words text'.toList ∧
      (∃ tokens stop tokens' stop', TokenList.ofText text = .ok ⟨tokens, stop⟩ ∧
        tokens.map (·.text.toList) = words ∧ TokenList.ofText text' = .ok ⟨tokens', stop'⟩ ∧
        tokens'.map (fun t => (t.kind, t.value, t.text)) =
          tokens.map (fun t => (t.kind, t.value, t.text))) ∧
      Query.parse .standard text .null = .ok (query text) ∧
      Query.parse .standard text' .null = .ok (query text') ∧
      ∀ registry given,
        SameAnswer (Query.parse registry text given) (Query.parse registry text' given) := by
  intro text text' words query
  have hlayout : LaidOut ["SELECT".toList, ['*'], "FROM".toList, ['c'], "LIMIT".toList, ['2']]
      " SELECT *\nFROM c\n\tLIMIT 2\n".toList :=
    .word [' '] rfl rfl <| .word [] rfl rfl <| .word [] rfl rfl <| .word [] rfl rfl <|
      .word ['\t'] rfl rfl <| .word [] rfl rfl <| .blank [] rfl
  have hquery : Query.parse .standard text .null = .ok (query text) :=
    eq_ok_of_toOption (by decide +kernel)
  have hquery' : Query.parse .standard text' .null = .ok (query text') :=
    eq_ok_of_toOption (by decide +kernel)
  obtain ⟨⟨tokens, stop⟩, htext, hwords⟩ : ∃ ts, TokenList.ofText text = .ok ts ∧
      decide (ts.tokens.map (·.text.toList) = words) = true :=
    exists_ok_of_any (by decide +kernel)
  have hwords : tokens.map (·.text.toList) = words := of_decide_eq_true hwords
  have hwritten : LaidOut (tokens.map (·.text.toList)) text'.toList := by
    rw [hwords]
    exact hlayout
  obtain ⟨tokens', stop', htext', hsame, hparse⟩ := parse_laidOut htext hwritten
  exact ⟨hlayout, ⟨tokens, stop, tokens', stop', htext, hwords, htext', hsame⟩, hquery, hquery',
    hparse⟩

end DocStore
