import DocStore.Proofs.Query.Derivation
import DocStore.Proofs.Query.Scanning

/-!
# What errors point at

A text that is refused is refused at a place in it (`parse_error_place`).
Where the error names a token, the token stands there; where it names
none, the place is the end of the text, or the start if there is nothing
but blanks.

The two halves of parsing owe this to different things. The scanner
refuses a character it has come to, and names raw text that starts with
it (`culprit_of_read`). The parser refuses one of the tokens or their
end, whichever of its functions that happens in (`PointsInto`), and the
tokens stand where they say (`Divides`).
-/

namespace DocStore

/-- The error stands at a place in the text, and names what is there. -/
structure ParseError.Locates (e : ParseError) (text : String) : Prop where
  inside : e.position.offset ≤ text.length
  /-- Line and column are those of the offset. -/
  place : e.position.IsBehind (text.toList.take e.position.offset)
  token : ∀ t, e.token = some t → t ≠ "" ∧ t.toList <+: text.toList.drop e.position.offset
  atEnd : e.token = none → isBlankText text = false → e.position.offset = text.length

theorem ParseError.locates_of_split {e : ParseError} {text : String} {before after : List Char}
    (htext : text.toList = before ++ after) (hplace : e.position = Position.start.advance before)
    (htoken : ∀ t, e.token = some t → t ≠ "" ∧ t.toList <+: after)
    (hend : e.token = none → isBlankText text = false → after = []) : e.Locates text := by
  have hbehind : e.position.IsBehind before := hplace ▸ Position.isBehind_advance before
  have hlength : text.length = before.length + after.length := by
    rw [← String.length_toList, htext, List.length_append]
  refine ⟨?_, ?_, fun t ht => ?_, fun hnone hblank => ?_⟩
  · rw [hbehind.offset, hlength]
    exact Nat.le_add_right ..
  · rw [htext, hbehind.offset, List.take_left]
    exact hbehind
  · rw [htext, hbehind.offset, List.drop_left]
    exact htoken t ht
  · rw [hbehind.offset, hlength, hend hnone hblank]
    rfl

/-! ## Refused by the scanner -/

namespace TokenList

open Lexeme

theorem number_of_read {c : Char} {rest : List Char} {text : String}
    (h : read c rest = .error (.malformedNumber text)) :
    startsNumber (c :: rest) = true ∧ text = String.ofList (numberText (c :: rest)) := by
  unfold Lexeme.read at h
  split at h
  · unfold string at h
    split at h <;> cases h
  · split at h
    · rename_i hnumber
      refine ⟨hnumber, ?_⟩
      simp only [number] at h
      split at h
      · cases h
      · cases h
        rfl
    · split at h
      · cases h
      · split at h
        · unfold parameter at h
          dsimp only at h
          split at h <;> cases h
        · split at h
          · cases h
          · split at h
            · cases h
            · split at h <;> cases h

/-- What the scanner names is at the front of what is left. -/
theorem culprit_of_read {c : Char} {rest : List Char} {cause : ParseCause}
    (h : read c rest = .error cause) :
    culprit cause (c :: rest) ≠ [] ∧ culprit cause (c :: rest) <+: c :: rest := by
  cases cause with
  | malformedNumber text =>
      obtain ⟨hnumber, rfl⟩ := number_of_read h
      obtain ⟨ds, after, htext, rfl, -⟩ :=
        exists_numberText (show (TokenKind.integer 0).isNumber = true from rfl) hnumber
      rw [culprit, String.toList_ofList, htext]
      exact ⟨List.cons_ne_nil _ _, List.prefix_append (c :: ds) after⟩
  | unterminatedString quote => exact ⟨List.cons_ne_nil _ _, List.prefix_rfl⟩
  | _ => exact ⟨List.cons_ne_nil _ _, List.prefix_append [c] rest⟩

/-- By the turn that is refused; every turn before it moves the place on
over what it reads. -/
theorem Scans.culprit {p : Position} {cs : List Char} {answer : Except ParseError TokenList}
    (h : Scans p cs answer) {e : ParseError} (he : answer = .error e) :
    ∃ before after token, cs = before ++ after ∧ e.position = p.advance before ∧
      e.token = some (String.ofList token) ∧ token ≠ [] ∧ token <+: after := by
  induction h with
  | stop => cases he
  | @blank p b rest answer hb h ih =>
      obtain ⟨before, after, token, rfl, hplace, htoken⟩ := ih he
      exact ⟨b :: before, after, token, rfl, hplace, htoken⟩
  | @lexeme p l c cs behind answer htext hblank hread h ih =>
      obtain ⟨before, after, token, rfl, hplace, htoken⟩ := ih (map_eq_error_iff.mp he)
      refine ⟨l.text ++ before, after, token, (List.append_assoc ..).symm, ?_, htoken⟩
      rw [hplace, Position.advance_append]
  | refused hblank hread =>
      obtain rfl := Except.error.inj he
      obtain ⟨hne, hprefix⟩ := culprit_of_read hread
      exact ⟨[], _, _, rfl, rfl, rfl, hne, hprefix⟩

theorem locates_of_ofText {text : String} {e : ParseError} (h : ofText text = .error e) :
    e.Locates text := by
  obtain ⟨before, after, token, htext, hplace, htoken, hne, hprefix⟩ :=
    (scans_scan .start text.toList).culprit h
  refine e.locates_of_split htext hplace (fun t ht => ?_) fun hnone => ?_
  · obtain rfl := Option.some.inj (htoken.symm.trans ht)
    exact ⟨by simpa using hne, by simpa using hprefix⟩
  · rw [htoken] at hnone
    cases hnone

end TokenList

/-! ## Refused by the parser -/

/-- A token, and the end of the tokens, are where they say. -/
theorem ParseError.PointsInto.locates {e : ParseError} {text : String} {tokens : List Token}
    {stop : Position} (h : e.PointsInto stop tokens)
    (hdivides : TokenList.Divides .start text.toList ⟨tokens, stop⟩) : e.Locates text := by
  rcases h.place with ⟨hplace, htoken⟩ | ⟨t, ht, hplace, htoken⟩
  · refine e.locates_of_split (List.append_nil _).symm (hplace.trans hdivides.stop)
      (fun t ht => ?_) fun _ _ => rfl
    rw [htoken] at ht
    cases ht
  · obtain ⟨hne, before, after, htext, hbehind⟩ := hdivides.raw t ht
    refine e.locates_of_split htext (hplace.trans hbehind) (fun u hu => ?_) fun hnone => ?_
    · obtain rfl := Option.some.inj (htoken.symm.trans hu)
      exact ⟨hne, List.prefix_append ..⟩
    · rw [htoken] at hnone
      cases hnone

/-- **Errors point at the culprit.** Whatever a text is refused for, with
whichever functions and parameters, the error stands at a place inside
the text or at its end, with the line and the column of that place. A
token that it names stands there; an error that names none stands at the
end, unless the text is blank. -/
theorem parse_error_place {registry : Registry} {text : String} {given : Json} {e : ParseError}
    (h : Query.parse registry text given = .error (.text e)) : e.Locates text := by
  unfold Query.parse at h
  cases hblank : isBlankText text with
  | true =>
      rw [hblank] at h
      cases h
      have htext : text.toList = [] ++ text.toList := rfl
      refine ParseError.locates_of_split htext rfl (fun t ht => ?_) fun _ hfalse => ?_
      · cases ht
      · rw [hblank] at hfalse
        cases hfalse
  | false =>
      rw [hblank] at h
      cases htext : TokenList.ofText text with
      | error cause =>
          rw [htext] at h
          cases h
          exact TokenList.locates_of_ofText htext
      | ok ts =>
          rw [htext] at h
          cases hvalues : Parameters.normalize given with
          | error cause =>
              rw [hvalues] at h
              cases h
          | ok values =>
              rw [hvalues] at h
              obtain ⟨cause, hread, hcause⟩ := mapError_eq_error_iff.mp h
              cases hcause
              have hyields := yields_readQuery registry values ts.stop text ts.tokens
              have hpoints := hyields.of_error hread
              exact hpoints.locates ((TokenList.scans_scan .start text.toList).divides htext)

/-- The text is refused with an error that passes a test. -/
def RefusedWith (x : Except QueryRefusal Query) (p : ParseError → Bool) : Bool :=
  match x with
  | .ok _ => false
  | .error (.text e) => p e
  | .error (.parameters _) => false

theorem exists_of_refusedWith {x : Except QueryRefusal Query} {p : ParseError → Bool}
    (h : RefusedWith x p = true) : ∃ e, x = .error (.text e) ∧ p e = true := by
  unfold RefusedWith at h
  split at h
  · cases h
  · exact ⟨_, rfl, h⟩
  · cases h

/-- A limit on the third line that the first line rules out. -/
theorem parse_error_place_limit :
    let text := "SELECT TOP 1 *\nFROM c\n  LIMIT 2"
    ∃ e, Query.parse .standard text .null = .error (.text e) ∧ e.position = ⟨3, 3, 24⟩ ∧
      e.token = some "LIMIT" ∧ e.Locates text := by
  intro text
  obtain ⟨e, he, hplace⟩ := exists_of_refusedWith (x := Query.parse .standard text .null)
    (p := fun e => e.position == ⟨3, 3, 24⟩ && e.token == some "LIMIT") (by decide +kernel)
  rw [Bool.and_eq_true, beq_iff_eq, beq_iff_eq] at hplace
  exact ⟨e, he, hplace.1, hplace.2, parse_error_place he⟩

end DocStore
