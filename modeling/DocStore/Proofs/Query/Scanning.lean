import DocStore.Proofs.Query.Render
import DocStore.Proofs.Query.Standalone
import DocStore.Proofs.Run

/-!
# Where tokens stand

Dividing a text into tokens takes a finite number of turns (`Scans`).
A turn passes over a blank, or reads a lexeme, which has at least the
character that it was chosen by; so every turn leaves less of the text
(`scans_scan`).

If no turn fails, the tokens are what the text holds besides blanks
(`ofText_divides`): their raw texts stand in it at their offsets, one
behind the other and without overlap, and every character that belongs
to none of them is blank. Lines and columns need no separate argument:
the place of a token is the place behind the text before it
(`IsBehind`), since the scanner moves its place on over every character,
whichever turn that belongs to.
-/

namespace DocStore

/-! ## Places -/

namespace Position

/-- The place behind a text: lines are told apart by line feeds, and a
column counts the characters since the last of them. -/
structure IsBehind (before : List Char) (p : Position) : Prop where
  offset : p.offset = before.length
  line : p.line = 1 + before.count '\n'
  column : p.column = 1 + (before.reverse.takeWhile (· ≠ '\n')).length

@[simp] theorem advance_nil (p : Position) : p.advance [] = p := rfl

@[simp] theorem advance_cons (p : Position) (c : Char) (cs : List Char) :
    p.advance (c :: cs) = (p.next c).advance cs := rfl

theorem advance_append (p : Position) (cs ds : List Char) :
    p.advance (cs ++ ds) = (p.advance cs).advance ds :=
  List.foldl_append

theorem isBehind_start : start.IsBehind [] :=
  ⟨rfl, rfl, rfl⟩

theorem IsBehind.next {before : List Char} {p : Position} (h : p.IsBehind before) (c : Char) :
    (p.next c).IsBehind (before ++ [c]) := by
  by_cases hc : c = '\n'
  · subst hc
    refine ⟨?_, ?_, ?_⟩ <;> simp [Position.next, h.offset, h.line, Nat.add_assoc]
  · refine ⟨?_, ?_, ?_⟩ <;> simp [Position.next, hc, h.offset, h.line, h.column, Nat.add_assoc]

theorem IsBehind.advance {before : List Char} {p : Position} (h : p.IsBehind before)
    (cs : List Char) : (p.advance cs).IsBehind (before ++ cs) := by
  induction cs generalizing before p with
  | nil => simpa using h
  | cons c cs ih => simpa using ih (h.next c)

/-- The scanner counts right. -/
theorem isBehind_advance (cs : List Char) : (start.advance cs).IsBehind cs :=
  isBehind_start.advance cs

@[simp] theorem offset_next (p : Position) (c : Char) : (p.next c).offset = p.offset + 1 := by
  unfold next
  split <;> rfl

@[simp] theorem offset_advance (p : Position) (cs : List Char) :
    (p.advance cs).offset = p.offset + cs.length := by
  induction cs generalizing p with
  | nil => rfl
  | cons c cs ih =>
      rw [advance_cons, ih, offset_next, List.length_cons]
      omega

end Position

/-- The character of the text belongs to the token. -/
def Token.Covers (t : Token) (i : Nat) : Prop :=
  t.position.offset ≤ i ∧ i < t.position.offset + t.text.length

namespace TokenList

open Lexeme

/-! ## Turns -/

/-- Dividing a text from a place on, turn by turn, ends in an answer. -/
inductive Scans : Position → List Char → Except ParseError TokenList → Prop where
  | stop {p : Position} : Scans p [] (.ok ⟨[], p⟩)
  | blank {p : Position} {b : Char} {rest : List Char} {answer : Except ParseError TokenList}
      (hb : Text.isBlank b = true) (h : Scans (p.next b) rest answer) : Scans p (b :: rest) answer
  | lexeme {p : Position} {l : Lexeme} {c : Char} {cs after : List Char}
      {answer : Except ParseError TokenList} (htext : l.text = c :: cs)
      (hblank : Text.isBlank c = false) (hread : read c (cs ++ after) = .ok l)
      (h : Scans (p.advance l.text) after answer) :
      Scans p (l.text ++ after) (answer.map (cons ⟨l.kind, p, String.ofList l.text⟩))
  | refused {p : Position} {c : Char} {rest : List Char} {cause : ParseCause}
      (hblank : Text.isBlank c = false) (hread : read c rest = .error cause) :
      Scans p (c :: rest)
        (.error ⟨cause, p, some (String.ofList (culprit cause (c :: rest)))⟩)

/-- Every text is divided in a finite number of turns. By recursion on
what is left of it: a lexeme has at least one character. -/
theorem scans_scan (p : Position) : ∀ cs, Scans p cs (scan p 0 cs)
  | [] => .stop
  | c :: rest => by
      cases hblank : Text.isBlank c with
      | true =>
          have hrest := scans_scan (p.next c) rest
          rw [scan]
          simp only [hblank, if_true]
          exact .blank hblank hrest
      | false =>
          cases hread : read c rest with
          | error cause =>
              rw [scan]
              simp only [hblank, Bool.false_eq_true, if_false, hread]
              exact .refused hblank hread
          | ok l =>
              obtain ⟨cs, after, htext, hrest, -⟩ := readAgain_of_read hread
              have hshorter : after.length < (c :: rest).length := by
                rw [hrest, List.length_cons, List.length_append]
                omega
              have hafter := scans_scan (p.advance l.text) after
              rw [hrest] at hread ⊢
              rw [← List.cons_append, ← htext, scan_of_read htext hblank hread]
              exact .lexeme htext hblank hread hafter
  termination_by cs => cs.length

/-! ## What the tokens leave -/

/-- The tokens, from a place on, are what the text holds besides
blanks. -/
structure Divides (p : Position) (cs : List Char) (ts : TokenList) : Prop where
  raw : ∀ t ∈ ts.tokens, t.text ≠ "" ∧ ∃ before after,
    cs = before ++ (t.text.toList ++ after) ∧ t.position = p.advance before
  apart : ts.tokens.Pairwise fun t u => t.position.offset + t.text.length ≤ u.position.offset
  blank : ∀ (i : Nat) (hi : i < cs.length), (∀ t ∈ ts.tokens, ¬ t.Covers (p.offset + i)) →
    Text.isBlank cs[i] = true
  stop : ts.stop = p.advance cs

theorem divides_nil (p : Position) : Divides p [] ⟨[], p⟩ where
  raw := by simp
  apart := .nil
  blank i hi := absurd hi (Nat.not_lt_zero i)
  stop := rfl

section Step

variable {p : Position} {cs : List Char} {ts : TokenList}

/-- No token stands in front of the place. -/
theorem Divides.offset_le (h : Divides p cs ts) {t : Token} (ht : t ∈ ts.tokens) :
    p.offset ≤ t.position.offset := by
  obtain ⟨-, before, -, -, hplace⟩ := h.raw t ht
  rw [hplace, Position.offset_advance]
  exact Nat.le_add_right ..

theorem Divides.passBlank {b : Char} (hb : Text.isBlank b = true) (h : Divides (p.next b) cs ts) :
    Divides p (b :: cs) ts where
  raw t ht := by
    obtain ⟨hne, before, after, rfl, hplace⟩ := h.raw t ht
    exact ⟨hne, b :: before, after, rfl, hplace⟩
  apart := h.apart
  blank i hi hcovers := by
    cases i with
    | zero => exact hb
    | succ i =>
        refine h.blank i (Nat.lt_of_succ_lt_succ hi) fun t ht => ?_
        rw [Position.offset_next, Nat.add_assoc, Nat.add_comm 1]
        exact hcovers t ht
  stop := h.stop

/-- A token that is put in front covers the characters up to the others,
and no more. -/
theorem Divides.putToken {kind : TokenKind} {text : List Char} (hne : text ≠ [])
    (h : Divides (p.advance text) cs ts) :
    Divides p (text ++ cs) (cons ⟨kind, p, String.ofList text⟩ ts) where
  raw t ht := by
    rcases List.mem_cons.mp ht with rfl | ht
    · exact ⟨by simpa using hne, [], cs, by simp, rfl⟩
    · obtain ⟨hne, before, after, rfl, hplace⟩ := h.raw t ht
      refine ⟨hne, text ++ before, after, by simp, ?_⟩
      rw [hplace, Position.advance_append]
  apart := by
    refine List.pairwise_cons.mpr ⟨fun t ht => ?_, h.apart⟩
    have hle := h.offset_le ht
    rw [Position.offset_advance] at hle
    simpa using hle
  blank i hi hcovers := by
    have hfirst := hcovers _ (List.mem_cons_self ..)
    have hlen : text.length ≤ i := by
      simpa [Token.Covers] using hfirst
    rw [List.getElem_append_right hlen]
    refine h.blank _ _ fun t ht => ?_
    rw [Position.offset_advance, Nat.add_assoc, Nat.add_sub_cancel' hlen]
    exact hcovers t (List.mem_cons_of_mem _ ht)
  stop := by
    rw [Position.advance_append]
    exact h.stop

end Step

theorem Scans.divides {p : Position} {cs : List Char} {answer : Except ParseError TokenList}
    (h : Scans p cs answer) {ts : TokenList} (hts : answer = .ok ts) : Divides p cs ts := by
  induction h generalizing ts with
  | stop =>
      obtain rfl := Except.ok.inj hts
      exact divides_nil _
  | blank hb h ih => exact (ih hts).passBlank hb
  | lexeme htext hblank hread h ih =>
      obtain ⟨us, hus, rfl⟩ := map_eq_ok_iff.mp hts
      exact (ih hus).putToken (by simp [htext])
  | refused hblank hread => cases hts

/-- **Tokens are where they say.** Dividing a text ends, in tokens or in
an error. The tokens, whose raw texts are not empty, stand in the text
at their offsets, in order and apart, and all between them is blank.
Their lines and columns are those of their offsets, and the tokens stop
at the end of the text. -/
theorem ofText_divides (text : String) :
    Scans .start text.toList (ofText text) ∧
      ∀ ts, ofText text = .ok ts →
        ts.tokens.Pairwise (fun t u => t.position.offset < u.position.offset ∧
          t.position.offset + t.text.length ≤ u.position.offset) ∧
        (∀ t ∈ ts.tokens, t.text ≠ "" ∧ ∃ before after,
          text.toList = before ++ (t.text.toList ++ after) ∧ t.position.IsBehind before) ∧
        (∀ (i : Nat) (hi : i < text.toList.length), (∀ t ∈ ts.tokens, ¬ t.Covers i) →
          Text.isBlank text.toList[i] = true) ∧
        ts.stop.IsBehind text.toList := by
  have hscans : Scans .start text.toList (ofText text) := scans_scan .start text.toList
  refine ⟨hscans, fun ts hts => ?_⟩
  have h := hscans.divides hts
  refine ⟨?_, fun t ht => ?_, fun i hi hcovers => ?_, ?_⟩
  · refine h.apart.imp_of_mem fun {t u} ht _ hle => ⟨?_, hle⟩
    have hpos : 0 < t.text.length := by
      simpa [Nat.pos_iff_ne_zero] using (h.raw t ht).1
    omega
  · obtain ⟨hne, before, after, hsplit, hplace⟩ := h.raw t ht
    exact ⟨hne, before, after, hsplit, hplace ▸ Position.isBehind_advance before⟩
  · refine h.blank i hi fun t ht => ?_
    rw [Position.start, Nat.zero_add]
    exact hcovers t ht
  · rw [h.stop]
    exact Position.isBehind_advance text.toList

/-- Two strings, one of them with a line feed in it, and a blank line
between them. -/
theorem ofText_divides_lines :
    let text := "'a\nb'\n\n \"c\" "
    ∃ ts, ofText text = .ok ts ∧
      ts.tokens.map (·.position) = [⟨1, 1, 0⟩, ⟨4, 2, 8⟩] ∧ ts.stop = ⟨4, 6, 12⟩ ∧
      ts.tokens.Pairwise (fun t u => t.position.offset < u.position.offset ∧
        t.position.offset + t.text.length ≤ u.position.offset) ∧
      ∀ t ∈ ts.tokens, t.text ≠ "" ∧ ∃ before after,
        text.toList = before ++ (t.text.toList ++ after) ∧ t.position.IsBehind before := by
  intro text
  obtain ⟨ts, hts, hplaces⟩ : ∃ ts, ofText text = .ok ts ∧
      (ts.tokens.map (·.position) == [⟨1, 1, 0⟩, ⟨4, 2, 8⟩] && ts.stop == ⟨4, 6, 12⟩) = true :=
    exists_ok_of_any (by decide +kernel)
  obtain ⟨hapart, hraw, -, -⟩ := (ofText_divides text).2 ts hts
  rw [Bool.and_eq_true, beq_iff_eq, beq_iff_eq] at hplaces
  exact ⟨ts, hts, hplaces.1, hplaces.2, hapart, hraw⟩

end TokenList

end DocStore
