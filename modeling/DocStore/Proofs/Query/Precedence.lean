import DocStore.Proofs.Query.Derivation
import DocStore.Proofs.Query.Printer

/-!
# Precedence

The printer writes what the grammar derives. `Spells` says that lexemes
are a phrase wherever they stand: tokens that start with them are
derived up to where they end, as something that means what was written.
Which tokens these are makes no difference but for the places in them.

A level of precedence is a nonterminal (`Nonterminal.ofLevel`). What is
derived at a level is derived at every lower one (`Derives.lower`), and
in parentheses at the highest (`SpellsAt.parenthesize`), so an
expression is spelled in a place of any level once it is spelled at its
own (`SpellsAt.bracket`).
-/

namespace DocStore

open Lexeme

/-! ## Tokens of given lexemes -/

/-- The first token of tokens that start with a lexeme. -/
theorem exists_token {tokens : List Token} {l : Lexeme} {ls : List Lexeme}
    (h : tokens.map Token.lexeme = l :: ls) :
    ∃ t rest, tokens = t :: rest ∧ t.kind = l.kind ∧ t.text = String.ofList l.text ∧
      rest.map Token.lexeme = ls := by
  obtain ⟨t, rest, rfl, ht, hrest⟩ := List.map_eq_cons_iff.mp h
  refine ⟨t, rest, rfl, congrArg Lexeme.kind ht, ?_, hrest⟩
  rw [← congrArg Lexeme.text ht]
  exact (String.ofList_toList ..).symm

/-! ## Phrases of given lexemes -/

/-- The lexemes are a phrase, whatever follows them. -/
def Spells {α : Type} (phrase : List Token → α → List Token → Prop) (ls : List Lexeme)
    (good : α → Prop) : Prop :=
  ∀ more tokens, tokens.map Token.lexeme = ls ++ more →
    ∃ a rest, phrase tokens a rest ∧ rest.map Token.lexeme = more ∧ good a

namespace Spells

variable {α : Type} {phrase other : List Token → α → List Token → Prop}
  {ls ms : List Lexeme} {good fine : α → Prop}

theorem mono (h : Spells phrase ls good) (hgood : ∀ a, good a → fine a) :
    Spells phrase ls fine := by
  intro more tokens htokens
  obtain ⟨a, rest, hphrase, hrest, ha⟩ := h more tokens htokens
  exact ⟨a, rest, hphrase, hrest, hgood a ha⟩

theorem lift (h : Spells phrase ls good)
    (hrule : ∀ tokens a rest, phrase tokens a rest → other tokens a rest) :
    Spells other ls good := by
  intro more tokens htokens
  obtain ⟨a, rest, hphrase, hrest, ha⟩ := h more tokens htokens
  exact ⟨a, rest, hrule tokens a rest hphrase, hrest, ha⟩

/-- A list of one entry. -/
theorem one (h : Spells phrase ls good) :
    Spells (Listed phrase) ls fun as => ∃ a, as = [a] ∧ good a := by
  intro more tokens htokens
  obtain ⟨a, rest, hphrase, hrest, ha⟩ := h more tokens htokens
  exact ⟨[a], rest, .one hphrase, hrest, a, rfl, ha⟩

/-- A list behind one more entry and a comma. -/
theorem more {all : List α → Prop} (h : Spells phrase ls good)
    (hs : Spells (Listed phrase) ms all) :
    Spells (Listed phrase) (ls ++ ofSign .comma :: ms) fun as =>
      ∃ a bs, as = a :: bs ∧ good a ∧ all bs := by
  intro more tokens htokens
  rw [List.append_assoc, List.cons_append] at htokens
  obtain ⟨a, rest, hphrase, hrest, ha⟩ := h _ tokens htokens
  obtain ⟨comma, rest, rfl, hcomma, -, hrest⟩ := exists_token hrest
  obtain ⟨bs, rest, hlisted, hrest, hbs⟩ := hs more rest hrest
  exact ⟨a :: bs, rest, .more hphrase hcomma hlisted, hrest, a, bs, rfl, ha, hbs⟩

end Spells

/-! ## Levels -/

/-- The nonterminal of a level. -/
def Nonterminal.ofLevel : Nat → Nonterminal
  | 0 => .or
  | 1 => .and
  | 2 => .not
  | 3 => .comparison
  | _ => .operand

section Levels

variable {tokens more rest : List Token} {e l r : RawExpr}

theorem Derives.lower_one {n : Nat} (h : Derives (.ofLevel (n + 1)) tokens e rest) :
    Derives (.ofLevel n) tokens e rest :=
  match n with
  | 0 => .and_or h
  | 1 => .not_and h
  | 2 => .comparison_not h
  | 3 => .operand_comparison h
  | _ + 4 => h

/-- What is derived at a level is derived at every lower one. -/
theorem Derives.lower {m n : Nat} (hmn : m ≤ n) (h : Derives (.ofLevel n) tokens e rest) :
    Derives (.ofLevel m) tokens e rest := by
  induction hmn with
  | refl => exact h
  | step _ ih => exact ih h.lower_one

/-- The rules of the operators are one rule, with the levels that they
ask for. -/
theorem derives_binary (op : BinaryOp) {w : Token}
    (hl : Derives (.ofLevel op.leftLevel) tokens l (w :: more)) (hw : w.kind = op.lexeme.kind)
    (hr : Derives (.ofLevel op.rightLevel) more r rest) :
    Derives (.ofLevel op.level) tokens (.binary op w l r) rest := by
  cases op with
  | compare c => exact .comparison hl hw hr
  | and => exact .and hl hw hr
  | or => exact .or hl hw hr

end Levels

/-! ## Expressions in their places -/

/-- The raw expression is admitted and means the expression, but for the
places in it. -/
structure RawExpr.Means (ctx : ParseContext) (e : Expr) (raw : RawExpr) : Prop where
  admitted : raw.Admitted ctx
  unplaced : (raw.expr ctx.parameters ctx.aliases).unplaced = e.unplaced

/-- The lexemes are the expression in a place of the level. -/
def SpellsAt (ctx : ParseContext) (n : Nat) (ls : List Lexeme) (e : Expr) : Prop :=
  Spells (Derives (.ofLevel n)) ls (RawExpr.Means ctx e)

section Places

variable {ctx : ParseContext} {ls rs : List Lexeme} {e l r : Expr}

theorem SpellsAt.lower {m n : Nat} (hmn : m ≤ n) (h : SpellsAt ctx n ls e) :
    SpellsAt ctx m ls e :=
  h.lift fun _ _ _ => Derives.lower hmn

theorem SpellsAt.parenthesize (h : SpellsAt ctx 0 ls e) (n : Nat) :
    SpellsAt ctx n (parenthesize ls) e := by
  have hoperand : ∀ {tokens raw rest}, Derives .operand tokens raw rest →
      Derives (.ofLevel n) tokens raw rest :=
    fun h => Derives.lower (Nat.le_add_right n 4) h
  intro more tokens htokens
  rw [DocStore.parenthesize, List.cons_append, List.append_assoc] at htokens
  obtain ⟨opening, inner, rfl, hopening, -, hinner⟩ := exists_token htokens
  obtain ⟨raw, rest, hraw, hrest, hmeans⟩ := h _ inner hinner
  obtain ⟨closing, rest, rfl, hclosing, -, hmore⟩ := exists_token hrest
  exact ⟨raw, rest, hoperand (.parentheses hopening hraw hclosing), hmore, hmeans⟩

/-- Parentheses stand where the place asks for a higher level. -/
theorem SpellsAt.bracket (n : Nat) (h : SpellsAt ctx e.level ls e) :
    SpellsAt ctx n (e.bracket n ls) e := by
  unfold Expr.bracket
  split
  · exact (h.lower (Nat.zero_le _)).parenthesize n
  · rename_i hle
    exact h.lower (Nat.not_lt.mp hle)

theorem spellsAt_not (h : SpellsAt ctx 2 ls e) (p : Option Position) :
    SpellsAt ctx 2 (ofKeyword .not :: ls) (.unary .not e p) := by
  intro more tokens htokens
  obtain ⟨word, inner, rfl, hword, -, hinner⟩ := exists_token htokens
  obtain ⟨raw, rest, hraw, hrest, hmeans⟩ := h more inner hinner
  refine ⟨.not word raw, rest, .not hword hraw, hrest,
    RawExpr.admitted_not_iff.mpr hmeans.admitted, ?_⟩
  simp only [RawExpr.expr, Expr.unplaced, hmeans.unplaced]

/-- An expression with an operator, from its operands in their
places. -/
theorem spellsAt_binary (op : BinaryOp) (hl : SpellsAt ctx op.leftLevel ls l)
    (hr : SpellsAt ctx op.rightLevel rs r) (p : Option Position) :
    SpellsAt ctx op.level (ls ++ op.lexeme :: rs) (.binary op l r p) := by
  intro more tokens htokens
  rw [List.append_assoc, List.cons_append] at htokens
  obtain ⟨left, rest, hleft, hrest, hmeans⟩ := hl _ tokens htokens
  obtain ⟨w, inner, rfl, hw, -, hinner⟩ := exists_token hrest
  obtain ⟨right, rest, hright, hmore, hmeans'⟩ := hr more inner hinner
  refine ⟨.binary op w left right, rest, derives_binary op hleft hw hright, hmore,
    RawExpr.admitted_binary_iff.mpr ⟨hmeans.admitted, hmeans'.admitted⟩, ?_⟩
  simp only [RawExpr.expr, Expr.unplaced, hmeans.unplaced, hmeans'.unplaced]

end Places

end DocStore
