import Mathlib.Data.List.Forall2
import DocStore.Proofs.Query.Scanning

/-!
# Names replaced in a text

A text is respelled by writing other raw texts in the places of its
tokens; all between them stays (`respell`). If names are written in the
places of names, the respelled text is divided into the tokens that were
written (`Scans.respell`): the lexemes around a name end in front of any
other as they did, and so does the name.

There is one exception. A number ends in front of a letter, but not of
one that marks an exponent: a name that starts with such a letter must
not be written right behind a number (`NumberBefore`).
-/

namespace DocStore

open Lexeme

/-! ## Texts -/

/-- The text from a place on, with the raw texts of the second tokens in
the places of the first ones. -/
def respell (place : Nat) : List Token → List Token → List Char → List Char
  | t :: ts, u :: us, cs =>
    let gap := t.position.offset - place
    cs.take gap ++ (u.text.toList ++
      respell (t.position.offset + t.text.length) ts us (cs.drop (gap + t.text.length)))
  | _, _, cs => cs

/-- The same token, or another name in the place of the name `x`. -/
inductive Token.Renames (x y : String) : Token → Token → Prop where
  | same (t : Token) : Renames x y t t
  | other {t : Token} (hkind : t.kind = .identifier) (htext : t.text = x) :
      Renames x y t { t with text := y }

/-- A number stands right in front of the name. -/
def NumberBefore (x : String) (tokens : List Token) : Prop :=
  ∃ t u, [t, u] <:+: tokens ∧ t.kind.isNumber = true ∧
    t.position.offset + t.text.length = u.position.offset ∧ u.text = x

theorem NumberBefore.cons {x : String} {tokens : List Token} (h : NumberBefore x tokens)
    (t : Token) : NumberBefore x (t :: tokens) := by
  obtain ⟨t', u, hinfix, h⟩ := h
  exact ⟨t', u, List.infix_cons hinfix, h⟩

/-- A text that starts with the mark of an exponent. -/
def startsMark (y : String) : Prop :=
  y.toList.head? = some 'e' ∨ y.toList.head? = some 'E'

section Respell

variable {x y : String} {p : Position} {cs : List Char} {ts : TokenList} {others : List Token}

/-- What stands in front of all tokens stays. -/
theorem respell_blank {place : Nat} {tokens : List Token}
    (h : ∀ t ∈ tokens, place + 1 ≤ t.position.offset) (b : Char) (others : List Token)
    (cs : List Char) :
    respell place tokens others (b :: cs) = b :: respell (place + 1) tokens others cs := by
  cases tokens with
  | nil => rfl
  | cons t tokens =>
      cases others with
      | nil => rfl
      | cons u others =>
          have hgap : t.position.offset - place = t.position.offset - (place + 1) + 1 := by
            have := h t (List.mem_cons_self ..)
            omega
          simp only [respell, hgap, List.take_succ_cons, Nat.add_right_comm _ 1,
            List.drop_succ_cons, List.cons_append]

/-- The first token gives way to the other one. -/
theorem respell_cons (kind : TokenKind) (p : Position) (text : List Char) (tokens : List Token)
    (u : Token) (others : List Token) (after : List Char) :
    respell p.offset (⟨kind, p, String.ofList text⟩ :: tokens) (u :: others) (text ++ after) =
      u.text.toList ++ respell (p.advance text).offset tokens others after := by
  simp [respell]

/-! ## Scanning -/

namespace TokenList

theorem Scans.behind_blank {b : Char} {answer : Except ParseError TokenList}
    (h : Scans (p.next b) cs answer) (hts : answer = .ok ts) :
    ∀ t ∈ ts.tokens, p.offset + 1 ≤ t.position.offset := by
  intro t ht
  rw [← Position.offset_next p b]
  exact (h.divides hts).offset_le ht

/-- What ended a lexeme in front of the text ends it in front of the
respelled one: it is the same character, or names start there. -/
theorem Scans.endsLike {answer : Except ParseError TokenList} (h : Scans p cs answer)
    (hts : answer = .ok ts) (hothers : List.Forall₂ (Token.Renames x y) ts.tokens others)
    (hy : IsName y) {kind : TokenKind} (hmark : kind.isNumber = true → startsMark y →
      ∀ t ∈ ts.tokens.head?, p.offset = t.position.offset → t.text ≠ x) :
    EndsLike kind cs (respell p.offset ts.tokens others cs) := by
  cases h with
  | stop =>
      obtain rfl := Except.ok.inj hts
      cases hothers
      exact endsLike_of_head?_eq rfl kind
  | blank hb h =>
      rw [respell_blank (h.behind_blank hts)]
      exact endsLike_of_head?_eq rfl kind
  | @lexeme _ l c cs after answer htext hblank hread h =>
      obtain ⟨us, -, rfl⟩ := map_eq_ok_iff.mp hts
      cases hothers with
      | @cons _ u _ others hu hothers =>
      rw [TokenList.cons, respell_cons]
      cases hu with
      | same =>
          rw [String.toList_ofList, htext]
          exact endsLike_of_head?_eq rfl kind
      | other hkind hx =>
          replace hkind : l.kind = .identifier := hkind
          obtain ⟨hstart, -, -⟩ := word_of_read hread (by rw [hkind]; rfl)
          obtain ⟨b, bs, hb, hstart', hdigit, -⟩ := IsLexeme.word_chars hy rfl
          rw [htext, hb]
          rintro _ ⟨⟩
          refine .inr ⟨c, rfl, .inr ⟨hstart, hstart', hdigit, fun hnumber => ?_⟩⟩
          refine not_or.mp fun hmarks => ?_
          refine hmark hnumber ?_ _ rfl rfl hx
          simpa [startsMark, hb] using hmarks
  | refused hblank hread => cases hts

/-- Where a name ended, any other name ends. -/
theorem read_of_isName {l : Lexeme} {c : Char} {after more : List Char}
    (hkind : l.kind = .identifier) (htext : l.text = c :: cs)
    (hread : read c (cs ++ after) = .ok l) (hends : EndsLike l.kind after more) (hy : IsName y) :
    ∃ b bs, y.toList = b :: bs ∧ Text.isBlank b = false ∧
      read b (bs ++ more) = .ok ⟨.identifier, y.toList⟩ := by
  obtain ⟨-, -, hword⟩ := word_of_read hread (by rw [hkind]; rfl)
  have htake : ((c :: cs) ++ after).takeWhile isWordChar = c :: cs :=
    (congrArg Lexeme.text hword).trans htext
  have hdrop : ((c :: cs) ++ after).dropWhile isWordChar = after := by
    have hall := List.takeWhile_append_dropWhile (p := isWordChar) (l := (c :: cs) ++ after)
    rw [htake] at hall
    exact List.append_cancel_left hall
  have hmore : ∀ b ∈ more.head?, isWordChar b = false := by
    intro b hb
    rw [← hdrop] at hends
    exact isWordChar_of_endsLike hends b hb
  obtain ⟨b, bs, hbs, hstart, hagain⟩ := exists_read_ofWord hy rfl
  refine ⟨b, bs, hbs, isBlank_of_startsWord hstart, (hagain more hmore).trans ?_⟩
  rw [← kind_ofWord hy rfl]
  rfl

/-- **Names can be replaced by names.** A text with other names in the
places of some is divided into the tokens that were written there, if no
number goes on with them. By induction on the turns. -/
theorem Scans.respell {answer : Except ParseError TokenList} (h : Scans p cs answer)
    (hts : answer = .ok ts) (hothers : List.Forall₂ (Token.Renames x y) ts.tokens others)
    (hy : IsName y) (hmark : startsMark y → ¬ NumberBefore x ts.tokens) (p' : Position) :
    ∃ us, scan p' 0 (respell p.offset ts.tokens others cs) = .ok us ∧
      us.tokens.map Token.lexeme = others.map Token.lexeme := by
  induction h generalizing ts others p' with
  | stop =>
      obtain rfl := Except.ok.inj hts
      cases hothers
      exact ⟨⟨[], p'⟩, rfl, rfl⟩
  | @blank p b rest answer hb h ih =>
      obtain ⟨us, hus, hmap⟩ := ih hts hothers hmark (p'.next b)
      rw [Position.offset_next] at hus
      refine ⟨us, ?_, hmap⟩
      rw [respell_blank (h.behind_blank hts), scan]
      simp only [hb, if_true, hus]
  | @lexeme p l c cs after answer htext hblank hread h ih =>
      obtain ⟨rest, hrest, rfl⟩ := map_eq_ok_iff.mp hts
      cases hothers with
      | @cons _ u _ others hu hothers =>
      have hends : EndsLike l.kind after
          (DocStore.respell (p.advance l.text).offset rest.tokens others after) := by
        refine h.endsLike hrest hothers hy fun hnumber hy t ht hplace hx => hmark hy ?_
        obtain ⟨more, hmore⟩ := List.head?_eq_some_iff.mp ht
        refine ⟨⟨l.kind, p, String.ofList l.text⟩, t, ⟨[], more, ?_⟩, hnumber, ?_, hx⟩
        · rw [TokenList.cons, hmore]
          rfl
        · rw [← hplace, Position.offset_advance, String.length_ofList]
      obtain ⟨us, hus, hmap⟩ := ih hrest hothers
        (fun hy hbefore => hmark hy (hbefore.cons _)) (p'.advance u.text.toList)
      have hread' : ∃ b bs, u.text.toList = b :: bs ∧ Text.isBlank b = false ∧
          read b (bs ++ DocStore.respell (p.advance l.text).offset rest.tokens others after) =
            .ok ⟨u.kind, u.text.toList⟩ := by
        cases hu with
        | same =>
            rw [String.toList_ofList]
            exact ⟨c, cs, htext, hblank, read_append_of_endsLike htext hread hends⟩
        | other hkind hx =>
            replace hkind : l.kind = .identifier := hkind
            rw [hkind]
            exact read_of_isName hkind htext hread hends hy
      obtain ⟨b, bs, htext', hblank', hread'⟩ := hread'
      have hscan := scan_of_read htext' hblank' hread' p'
      rw [hus] at hscan
      refine ⟨cons ⟨u.kind, p', String.ofList u.text.toList⟩ us, ?_, ?_⟩
      · rw [TokenList.cons, respell_cons]
        exact hscan
      · simp only [TokenList.cons, List.map_cons, hmap, String.ofList_toList]
        rfl
  | refused hblank hread => cases hts

theorem ofText_respell {text : String} (htext : ofText text = .ok ts)
    (hothers : List.Forall₂ (Token.Renames x y) ts.tokens others) (hy : IsName y)
    (hmark : startsMark y → ¬ NumberBefore x ts.tokens) :
    ∃ us, ofText (String.ofList (DocStore.respell 0 ts.tokens others text.toList)) = .ok us ∧
      us.tokens.map Token.lexeme = others.map Token.lexeme := by
  rw [ofText, String.toList_ofList]
  exact (scans_scan .start text.toList).respell htext hothers hy hmark .start

end TokenList

end Respell

end DocStore
