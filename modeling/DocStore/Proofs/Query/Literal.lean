import DocStore.Proofs.Query.Scanning

/-!
# Strings keep to themselves

A string in quotes can be put between any two texts (`ofText_quoted`).
The text in front is divided as before, for a quote ends every lexeme
(`Scans.append`). The string is read up to its own quote, whatever it
holds, because quotes and backslashes in it are written behind a
backslash. And the text behind it is divided as if it stood alone: the
scanner carries nothing over but the place, by which tokens and errors
are moved on (`scan_moved`).
-/

namespace DocStore

/-! ## Texts in a row -/

namespace TokenList

open Lexeme

/-- Behind a text that has been divided, the scanner goes on with a text
in front of which all lexemes end. By induction on the turns. -/
theorem Scans.append {p : Position} {cs more : List Char} {answer : Except ParseError TokenList}
    (h : Scans p cs answer) {ts : TokenList} (hts : answer = .ok ts)
    (hmore : ∀ b ∈ more.head?, endsAny b = true) :
    scan p 0 (cs ++ more) =
      (scan ts.stop 0 more).map fun us => ⟨ts.tokens ++ us.tokens, us.stop⟩ := by
  induction h generalizing ts with
  | @stop p =>
      obtain rfl := Except.ok.inj hts
      cases h : scan p 0 more <;> simp [h, Except.map]
  | blank hb h ih =>
      rw [List.cons_append, scan]
      simp only [hb, if_true, ih hts]
  | @lexeme p l c cs after answer htext hblank hread h ih =>
      obtain ⟨us, hus, rfl⟩ := map_eq_ok_iff.mp hts
      have hends : EndsLike l.kind after (after ++ more) := by
        cases after with
        | nil => exact fun b hb => .inl (hmore b hb)
        | cons a after => exact endsLike_of_head?_eq rfl l.kind
      have hread := read_append_of_endsLike htext hread hends
      rw [List.append_assoc, scan_of_read htext hblank hread, ih hus]
      change _ = (scan us.stop 0 more).map _
      cases scan us.stop 0 more <;> rfl
  | refused hblank hread => cases hts

end TokenList

/-! ## Texts that start elsewhere -/

/-- The place of a text, if the text starts at `origin`. -/
def Position.moved (origin p : Position) : Position where
  line := origin.line + p.line - 1
  column := if p.line = 1 then origin.column + p.column - 1 else p.column
  offset := origin.offset + p.offset

theorem Position.moved_start (origin : Position) : origin.moved start = origin := rfl

theorem Position.moved_next (origin : Position) {p : Position} (hline : 1 ≤ p.line)
    (hcolumn : 1 ≤ p.column) (c : Char) : (origin.moved p).next c = origin.moved (p.next c) := by
  by_cases hc : c = '\n'
  · have hlater : p.line ≠ 0 := by omega
    simp only [next, moved, hc, if_true, Position.mk.injEq]
    refine ⟨by omega, ?_, by omega⟩
    rw [if_neg (by omega)]
  · simp only [next, moved, hc, if_false, Position.mk.injEq, true_and]
    refine ⟨?_, by omega⟩
    split <;> omega

def Token.moved (origin : Position) (t : Token) : Token :=
  { t with position := origin.moved t.position }

def TokenList.moved (origin : Position) (ts : TokenList) : TokenList :=
  ⟨ts.tokens.map (·.moved origin), origin.moved ts.stop⟩

def ParseError.moved (origin : Position) (e : ParseError) : ParseError :=
  { e with position := origin.moved e.position }

namespace TokenList

open Lexeme

theorem one_le_next {p : Position} (hline : 1 ≤ p.line) (c : Char) :
    1 ≤ (p.next c).line ∧ 1 ≤ (p.next c).column := by
  unfold Position.next
  split
  · exact ⟨Nat.le_add_left .., Nat.le_refl 1⟩
  · exact ⟨hline, Nat.le_add_left ..⟩

/-- The answer of the scanner depends on where the text starts by places
alone. -/
theorem scan_moved (origin : Position) {p : Position} (hline : 1 ≤ p.line)
    (hcolumn : 1 ≤ p.column) (skip : Nat) (cs : List Char) :
    scan (origin.moved p) skip cs =
      ((scan p skip cs).map (moved origin)).mapError (·.moved origin) := by
  induction cs generalizing p skip with
  | nil => rfl
  | cons c rest ih =>
      obtain ⟨hline', hcolumn'⟩ := one_le_next hline c
      have ih := fun skip => ih hline' hcolumn' skip
      cases skip with
      | succ skip =>
          rw [scan, scan, origin.moved_next hline hcolumn]
          exact ih skip
      | zero =>
          rw [scan, scan, origin.moved_next hline hcolumn]
          split
          · exact ih 0
          split
          · rfl
          · rename_i l _
            rw [ih]
            cases scan (p.next c) (l.text.length - 1) rest <;> rfl

/-! ## Strings in a text -/

/-- **Strings keep to themselves.** A string in quotes stands as one
token between the tokens of the text in front of it, which are as they
were, and those of the text behind it, which differ in their places
alone; that text is refused if and only if it is refused on its own, for
the same cause at the same token. -/
theorem ofText_quoted {front : String} {ts : TokenList} (hfront : ofText front = .ok ts)
    {quote : Char} (hquote : quote = '"' ∨ quote = '\'') (s rest : String) :
    let literal := String.ofList (quoted quote s).text
    let origin := ts.stop.advance literal.toList
    ts.stop.offset = front.length ∧ origin.offset = front.length + literal.length ∧
      ofText (front ++ literal ++ rest) =
        ((ofText rest).map fun us =>
          ⟨ts.tokens ++ ⟨.string s, ts.stop, literal⟩ :: us.tokens.map (·.moved origin),
            origin.moved us.stop⟩).mapError (·.moved origin) := by
  intro literal origin
  have hscans := scans_scan .start front.toList
  have hstop : ts.stop.offset = front.length := by
    rw [(hscans.divides hfront).stop, Position.offset_advance, String.length_toList]
    exact Nat.zero_add _
  have horigin : origin.offset = front.length + literal.length := by
    rw [Position.offset_advance, hstop, String.length_toList]
  refine ⟨hstop, horigin, ?_⟩
  have htext : literal.toList = quote :: (escapeIn quote s.toList ++ [quote]) := by
    rw [String.toList_ofList]
    rfl
  have hquoted : scan ts.stop 0 ((quoted quote s).text ++ rest.toList) = _ :=
    scan_append (readable_quoted hquote s) (fun _ _ => rfl) ts.stop
  have hmore : ∀ b ∈ (literal.toList ++ rest.toList).head?, endsAny b = true := by
    rw [htext]
    rintro b ⟨⟩
    rcases hquote with rfl | rfl <;> decide
  have hrest : scan origin 0 rest.toList =
      ((ofText rest).map (moved origin)).mapError (·.moved origin) := by
    have h := scan_moved origin (p := .start) (Nat.le_refl 1) (Nat.le_refl 1) 0 rest.toList
    rwa [origin.moved_start] at h
  have hplace : ts.stop.advance (quoted quote s).text = origin := by
    rw [← String.toList_ofList (l := (quoted quote s).text)]
  rw [ofText, String.toList_append, String.toList_append, List.append_assoc,
    hscans.append hfront hmore, String.toList_ofList, hquoted, hplace, hrest]
  cases ofText rest <;> rfl

/-- A value that holds a quote, a backslash at its end and a line feed,
between an operator and a word. -/
theorem ofText_quoted_between :
    let value := "it's\n\\"
    let literal := String.ofList (quoted '\'' value).text
    ∃ ts, ofText "a<" = .ok ts ∧ ts.stop.offset = "a<".length ∧
      ofText ("a<" ++ literal ++ "b") =
        ((ofText "b").map fun us =>
          ⟨ts.tokens ++ ⟨.string value, ts.stop, literal⟩ ::
              us.tokens.map (·.moved (ts.stop.advance literal.toList)),
            (ts.stop.advance literal.toList).moved us.stop⟩).mapError
          (·.moved (ts.stop.advance literal.toList)) := by
  intro value literal
  obtain ⟨ts, hts, -⟩ : ∃ ts, ofText "a<" = .ok ts ∧ true :=
    exists_ok_of_any (by decide +kernel)
  obtain ⟨hstop, -, hquoted⟩ := ofText_quoted hts (.inr rfl) value "b"
  exact ⟨ts, hts, hstop, hquoted⟩

end TokenList

end DocStore
