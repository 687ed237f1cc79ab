import DocStore.Proofs.Query.Lexeme

/-!
# Writing lexemes as a text

`render` writes lexemes one behind the other, with a blank between two
of them unless they are customarily written together: no blank stands
before a comma, a closing parenthesis, the point of a path or the
opening parenthesis of a call, and none behind an opening parenthesis
or a point.

Scanning the text gives the lexemes back (`scan_render`), each with the
place where it was written, and a text is refused as a whole if one of
its lexemes is (`scan_render_of_refused`).
-/

namespace DocStore

/-- A token without its place in the text. -/
def Token.lexeme (t : Token) : Lexeme :=
  ⟨t.kind, t.text.toList⟩

namespace Lexeme

/-- No blank stands between the lexemes. -/
def glued (l m : Lexeme) : Bool :=
  match m.text.head? with
  | some ',' | some ')' => true
  | some '.' => l.kind.isName
  | some '(' => l.kind = .identifier || l.kind = .sign .leftParen
  | _ => l.kind = .sign .leftParen || l.kind = .sign .dot

/-- Lexemes as a text. -/
def render : List Lexeme → List Char
  | [] => []
  | [l] => l.text
  | l :: m :: ls => l.text ++ ((if glued l m then [] else [' ']) ++ render (m :: ls))

/-- A text of the query language from its lexemes. -/
def renderText (ls : List Lexeme) : String :=
  String.ofList (render ls)

/-! ## What stands behind a lexeme -/

theorem mayFollow_blank (kind : TokenKind) : mayFollow kind ' ' = true := by
  cases kind <;> rfl

theorem mayFollow_of_glued {l m : Lexeme} {c : Char} {cs : List Char} (hm : m.text = c :: cs)
    (h : glued l m = true) : mayFollow l.kind c = true := by
  simp only [glued, hm, List.head?_cons] at h
  split at h
  · rename_i heq
    obtain rfl := Option.some.inj heq
    cases l.kind <;> rfl
  · rename_i heq
    obtain rfl := Option.some.inj heq
    cases l.kind <;> rfl
  · rename_i heq
    obtain rfl := Option.some.inj heq
    cases hk : l.kind <;> first | rfl | (rw [hk] at h; cases h)
  · rename_i heq
    obtain rfl := Option.some.inj heq
    rcases Bool.or_eq_true _ _ ▸ h with h | h <;> rw [of_decide_eq_true h] <;> rfl
  · rcases Bool.or_eq_true _ _ ▸ h with h | h <;> rw [of_decide_eq_true h] <;> rfl

/-- A text of lexemes starts as its first lexeme does. -/
theorem render_cons {m : Lexeme} {c : Char} {cs : List Char} (hm : m.text = c :: cs)
    (ls : List Lexeme) : ∃ rest, render (m :: ls) = c :: rest := by
  cases ls with
  | nil => exact ⟨cs, hm⟩
  | cons n ls => exact ⟨_, by rw [render, hm, List.cons_append]⟩

/-- What `render` puts behind a lexeme does not continue it. -/
theorem closes_render (l : Lexeme) {m : Lexeme} {c : Char} {cs : List Char}
    (hm : m.text = c :: cs) (ls : List Lexeme) :
    Closes l.kind ((if glued l m then [] else [' ']) ++ render (m :: ls)) := by
  split
  · rename_i hglued
    obtain ⟨rest, hrest⟩ := render_cons hm ls
    rw [List.nil_append, hrest]
    exact closes_cons rest (mayFollow_of_glued hm hglued)
  · exact closes_cons _ (mayFollow_blank l.kind)

end Lexeme

namespace TokenList

open Lexeme

/-! ## Scanning -/

/-- At the head of a text that is divided into tokens stands a blank or
the first of them. -/
theorem scan_cons_cases {p : Position} {c : Char} {rest : List Char} {ts : TokenList}
    (h : scan p 0 (c :: rest) = .ok ts) :
    (Text.isBlank c = true ∧ scan (p.next c) 0 rest = .ok ts) ∨
      ∃ l us, Text.isBlank c = false ∧ read c rest = .ok l ∧
        scan (p.next c) (l.text.length - 1) rest = .ok us ∧
        ts = cons ⟨l.kind, p, String.ofList l.text⟩ us := by
  rw [scan] at h
  split at h
  · rename_i hblank
    exact .inl ⟨hblank, h⟩
  rename_i hblank
  split at h
  · cases h
  rename_i l hread
  cases hrest : scan (p.next c) (l.text.length - 1) rest with
  | error e =>
      rw [hrest] at h
      cases h
  | ok us =>
      rw [hrest] at h
      exact .inr ⟨l, us, Bool.eq_false_of_not_eq_true hblank, hread, hrest, (Except.ok.inj h).symm⟩

/-- The characters of a lexeme that has been read are passed over. -/
theorem scan_skip (p : Position) (cs after : List Char) :
    scan p cs.length (cs ++ after) = scan (p.advance cs) 0 after := by
  induction cs generalizing p with
  | nil => rfl
  | cons c cs ih => exact ih (p.next c)

/-- So are blanks. -/
theorem scan_gap {gap : List Char} (hgap : gap.all Text.isBlank = true) (p : Position)
    (cs : List Char) : scan p 0 (gap ++ cs) = scan (p.advance gap) 0 cs := by
  induction gap generalizing p with
  | nil => rfl
  | cons b gap ih =>
      rw [List.all_cons, Bool.and_eq_true] at hgap
      rw [List.cons_append, scan]
      simp only [hgap.1, if_true, ih hgap.2]
      rfl

/-- A text of blanks has no tokens. -/
theorem scan_of_blank {cs : List Char} (h : cs.all Text.isBlank = true) (p : Position) :
    ∃ stop, scan p 0 cs = .ok ⟨[], stop⟩ := by
  have hscan := scan_gap h p []
  rw [List.append_nil] at hscan
  exact ⟨_, hscan⟩

theorem scan_blank (p : Position) (after : List Char) :
    scan p 0 (' ' :: after) = scan (p.next ' ') 0 after := rfl

/-- Scanning a text that starts with a lexeme. -/
theorem scan_of_read {l : Lexeme} {c : Char} {cs after : List Char} (hcs : l.text = c :: cs)
    (hblank : Text.isBlank c = false) (hread : read c (cs ++ after) = .ok l) (p : Position) :
    scan p 0 (l.text ++ after) =
      (scan (p.advance l.text) 0 after).map (cons ⟨l.kind, p, String.ofList l.text⟩) := by
  rw [hcs, List.cons_append, scan]
  simp only [hblank, Bool.false_eq_true, if_false, hread]
  rw [hcs, List.length_cons, Nat.add_sub_cancel, scan_skip]
  rfl

theorem scan_append {l : Lexeme} (hl : l.Readable) {after : List Char}
    (h : Closes l.kind after) (p : Position) :
    scan p 0 (l.text ++ after) =
      (scan (p.advance l.text) 0 after).map (cons ⟨l.kind, p, String.ofList l.text⟩) := by
  obtain ⟨c, cs, hcs, hblank, hread⟩ := hl
  exact scan_of_read hcs hblank (hread after h) p

/-- The first lexeme of a text becomes its first token. -/
theorem scan_render_cons {l m : Lexeme} (hl : l.Readable) {c : Char} {cs : List Char}
    (hm : m.text = c :: cs) (ls : List Lexeme) (p : Position) :
    ∃ q, scan p 0 (render (l :: m :: ls)) =
      (scan q 0 (render (m :: ls))).map (cons ⟨l.kind, p, String.ofList l.text⟩) := by
  rw [render, scan_append hl (closes_render l hm ls)]
  cases glued l m with
  | true => exact ⟨_, rfl⟩
  | false => exact ⟨_, congrArg (Except.map _) (scan_blank _ _)⟩

/-- **Lexemes round trip**: a text of readable lexemes is divided into
tokens of these lexemes. -/
theorem scan_render {ls : List Lexeme} (h : ∀ l ∈ ls, l.Readable) (p : Position) :
    ∃ ts stop, scan p 0 (render ls) = .ok ⟨ts, stop⟩ ∧ ts.map Token.lexeme = ls := by
  induction ls generalizing p with
  | nil => exact ⟨[], p, rfl, rfl⟩
  | cons l ls ih =>
      have hl := h l (List.mem_cons_self ..)
      have ih := ih fun m hm => h m (List.mem_cons_of_mem l hm)
      cases ls with
      | nil =>
          have hscan := scan_append hl (closes_nil l.kind) p
          rw [List.append_nil] at hscan
          exact ⟨[_], _, hscan, by simp [Token.lexeme]⟩
      | cons m ls =>
          obtain ⟨c, cs, hm, -⟩ := h m (by simp)
          obtain ⟨q, hq⟩ := scan_render_cons hl hm ls p
          obtain ⟨ts, stop, hts, hmap⟩ := ih q
          refine ⟨⟨l.kind, p, String.ofList l.text⟩ :: ts, stop, ?_, ?_⟩
          · rw [hq, hts]
            rfl
          · simp [Token.lexeme, hmap]

/-! ## Refusals -/

/-- The lexer finds an error in a text that starts with the lexeme. -/
def Refused (l : Lexeme) : Prop :=
  ∃ c cs, l.text = c :: cs ∧ Text.isBlank c = false ∧ ∃ cause, read c cs = .error cause

theorem scan_of_refused {l : Lexeme} (hl : Refused l) (p : Position) :
    ∃ e, scan p 0 l.text = .error e := by
  obtain ⟨c, cs, hcs, hblank, cause, hread⟩ := hl
  refine ⟨⟨cause, p, some (String.ofList (culprit cause (c :: cs)))⟩, ?_⟩
  rw [hcs, scan]
  simp only [hblank, Bool.false_eq_true, if_false, hread]

/-- A text that ends in an error is refused, whatever stands before. -/
theorem scan_render_of_refused {ls : List Lexeme} (h : ∀ l ∈ ls, l.Readable) {bad : Lexeme}
    (hbad : Refused bad) (p : Position) :
    ∃ e, scan p 0 (render (ls ++ [bad])) = .error e := by
  induction ls generalizing p with
  | nil => exact scan_of_refused hbad p
  | cons l ls ih =>
      have hl := h l (List.mem_cons_self ..)
      have ih := ih fun m hm => h m (List.mem_cons_of_mem l hm)
      obtain ⟨m, ms, c, cs, hms, hm⟩ : ∃ m ms c cs, ls ++ [bad] = m :: ms ∧ m.text = c :: cs := by
        cases ls with
        | nil =>
            obtain ⟨c, cs, hbad, -⟩ := hbad
            exact ⟨bad, [], c, cs, rfl, hbad⟩
        | cons m ls =>
            obtain ⟨c, cs, hm, -⟩ := h m (by simp)
            exact ⟨m, ls ++ [bad], c, cs, rfl, hm⟩
      obtain ⟨q, hq⟩ := scan_render_cons hl hm ms p
      obtain ⟨e, he⟩ := ih q
      refine ⟨e, ?_⟩
      rw [List.cons_append, hms, hq, ← hms, he]
      rfl

end TokenList

end DocStore
