import Mathlib.Data.List.Forall2
import DocStore.Proofs.Query.Printer
import DocStore.Proofs.Query.Reading

/-!
# Places play no part in parsing

The parser decides by the kinds and the raw texts of tokens. Where they
stand is only passed on, into the tree and into errors. So two token
lists that differ in places alone are read in step: each parsing
function takes as many tokens off either, and ends in trees that agree
without their places or in errors with the same cause at the same token
(`ReadsAlike`).

There is one lemma for each parsing function, in the order of the
parser. Those of expressions are proved together, by induction on the
fuel (`ExpressionsAlike`).
-/

namespace DocStore

/-- The same lexeme, perhaps in another place. -/
structure Token.Alike (t t' : Token) : Prop where
  kind : t.kind = t'.kind
  text : t.text = t'.text

/-- The same lexemes. -/
abbrev SameLexemes : List Token → List Token → Prop :=
  List.Forall₂ Token.Alike

theorem sameLexemes_of_map_eq {tokens tokens' : List Token}
    (h : tokens.map Token.lexeme = tokens'.map Token.lexeme) : SameLexemes tokens tokens' := by
  induction tokens generalizing tokens' with
  | nil =>
      obtain rfl := List.map_eq_nil_iff.mp h.symm
      exact .nil
  | cons t tokens ih =>
      obtain ⟨t', rest, rfl, ht, hrest⟩ := List.map_eq_cons_iff.mp h.symm
      have halike : t.Alike t' :=
        ⟨(congrArg Lexeme.kind ht).symm, String.toList_inj.mp (congrArg Lexeme.text ht).symm⟩
      exact .cons halike (ih hrest.symm)

/-! ## Answers in step -/

/-- Results of which the relation holds, or errors that differ in places
alone. -/
inductive Agrees {α β : Type} (R : α → β → Prop) :
    Except ParseError α → Except ParseError β → Prop where
  | ok {a : α} {b : β} (h : R a b) : Agrees R (.ok a) (.ok b)
  | error {e e' : ParseError} (hcause : e.cause = e'.cause) (htoken : e.token = e'.token) :
      Agrees R (.error e) (.error e')

theorem Agrees.bind {α β γ δ : Type} {R : α → β → Prop} {S : γ → δ → Prop}
    {x : Except ParseError α} {y : Except ParseError β} {f : α → Except ParseError γ}
    {g : β → Except ParseError δ} (h : Agrees R x y)
    (hfg : ∀ a b, R a b → Agrees S (f a) (g b)) : Agrees S (x >>= f) (y >>= g) := by
  cases h with
  | ok h => exact hfg _ _ h
  | error hcause htoken => exact .error hcause htoken

/-- Two parsing functions read the same tokens, with results of which
the relation holds. -/
def ReadsAlike {α : Type} (R : α → α → Prop) :
    Except ParseError (Parsed α) → Except ParseError (Parsed α) → Prop :=
  Agrees fun r r' => R r.1 r'.1 ∧ SameLexemes r.2 r'.2

section Parser

variable {stop stop' : Position} {t t' : Token} {tokens tokens' : List Token}

/-! ## Tokens -/

theorem expectedAt_agrees {α β : Type} {R : α → β → Prop} (what : Expectation)
    (h : SameLexemes tokens tokens') :
    Agrees R (expectedAt stop what tokens) (expectedAt stop' what tokens') := by
  cases h with
  | nil => exact .error rfl rfl
  | cons ht _ => exact .error rfl (congrArg some ht.text)

theorem refusedAt_agrees {α β : Type} {R : α → β → Prop} (ht : t.Alike t')
    (cause : ParseCause) : Agrees R (refusedAt t cause) (refusedAt t' cause) :=
  .error rfl (congrArg some ht.text)

theorem readKind_alike (kind : TokenKind) (what : Expectation) (h : SameLexemes tokens tokens') :
    ReadsAlike Token.Alike (readKind stop kind what tokens) (readKind stop' kind what tokens') := by
  cases h with
  | nil => exact .error rfl rfl
  | cons ht hrest =>
      rw [readKind, readKind, ht.kind]
      split
      · exact .ok ⟨ht, hrest⟩
      · exact expectedAt_agrees what (.cons ht hrest)

theorem skipKind_cases (kind : TokenKind) (h : SameLexemes tokens tokens') :
    (skipKind kind tokens = none ∧ skipKind kind tokens' = none) ∨
      ∃ rest rest', skipKind kind tokens = some rest ∧ skipKind kind tokens' = some rest' ∧
        SameLexemes rest rest' := by
  cases h with
  | nil => exact .inl ⟨rfl, rfl⟩
  | @cons t t' rest rest' ht hrest =>
      by_cases hkind : t.kind = kind
      · exact .inr ⟨rest, rest', skipKind_of_eq hkind rest,
          skipKind_of_eq (ht.kind ▸ hkind) rest', hrest⟩
      · exact .inl ⟨skipKind_of_ne hkind rest, skipKind_of_ne (ht.kind ▸ hkind) rest'⟩

/-! ## Paths -/

/-- The same path, perhaps in another place. -/
structure RawPath.Alike (p p' : RawPath) : Prop where
  start : p.start.Alike p'.start
  rest : p.rest = p'.rest

theorem RawPath.Alike.text {p p' : RawPath} (h : p.Alike p') : p.text = p'.text := by
  rw [RawPath.text, RawPath.segments, h.start.text, h.rest]
  rfl

theorem RawPath.Alike.below {p p' : RawPath} (h : p.Alike p') (aliases : List String) :
    p.below aliases = p'.below aliases := by
  rw [RawPath.below, RawPath.below, RawPath.segments, RawPath.segments, h.start.text, h.rest]

/-- By recursion on the tokens, two at a time. -/
theorem readRest_alike : ∀ {tokens tokens' : List Token}, SameLexemes tokens tokens' →
    ReadsAlike Eq (RawPath.readRest stop tokens) (RawPath.readRest stop' tokens')
  | _, _, .nil => .ok ⟨rfl, .nil⟩
  | _, _, .cons hd .nil => by
      rw [RawPath.readRest, RawPath.readRest, hd.kind]
      split
      · exact expectedAt_agrees .propertyName .nil
      · exact .ok ⟨rfl, .cons hd .nil⟩
  | _, _, .cons hd (.cons hn h) => by
      rw [RawPath.readRest, RawPath.readRest, hd.kind, hn.kind]
      split
      · split
        · refine (readRest_alike h).bind ?_
          rintro ⟨names, left⟩ ⟨names', left'⟩ ⟨hnames, hleft⟩
          exact .ok ⟨congrArg₂ List.cons hn.text hnames, hleft⟩
        · exact expectedAt_agrees .propertyName (.cons hn h)
      · exact .ok ⟨rfl, .cons hd (.cons hn h)⟩

theorem readPath_alike (what : Expectation) (h : SameLexemes tokens tokens') :
    ReadsAlike RawPath.Alike (RawPath.read stop what tokens) (RawPath.read stop' what tokens') := by
  refine (readKind_alike .identifier what h).bind ?_
  rintro ⟨t, tokens⟩ ⟨t', tokens'⟩ ⟨ht, h⟩
  refine (readRest_alike h).bind ?_
  rintro ⟨rest, tokens⟩ ⟨rest', tokens'⟩ ⟨hrest, h⟩
  exact .ok ⟨⟨ht, hrest⟩, h⟩

/-! ## Expressions -/

/-- The same expression, perhaps in another place. -/
def Expr.Alike (e e' : Expr) : Prop :=
  e.unplaced = e'.unplaced

theorem Expr.Alike.unary {e e' : Expr} (h : e.Alike e') (op : UnaryOp)
    (at? at'? : Option Position) : (unary op e at?).Alike (unary op e' at'?) := by
  unfold Expr.Alike
  rw [unplaced, unplaced, h]

theorem Expr.Alike.binary {l l' r r' : Expr} (hl : l.Alike l') (hr : r.Alike r')
    (op : BinaryOp) (at? at'? : Option Position) :
    (binary op l r at?).Alike (binary op l' r' at'?) := by
  unfold Expr.Alike
  rw [unplaced, unplaced, hl, hr]

theorem Expr.unplacedAll_cons_congr {e e' : Expr} {es es' : List Expr} (he : e.Alike e')
    (hes : unplacedAll es = unplacedAll es') :
    unplacedAll (e :: es) = unplacedAll (e' :: es') := by
  rw [unplacedAll, unplacedAll, he, hes]

theorem Expr.length_eq_of_unplacedAll {es es' : List Expr}
    (h : unplacedAll es = unplacedAll es') : es.length = es'.length := by
  rw [unplacedAll_eq_map, unplacedAll_eq_map] at h
  simpa using congrArg List.length h

theorem parameter_agrees (ctx : ParseContext) (ht : t.Alike t') :
    Agrees Eq (ctx.parameter t) ({ ctx with stop := stop' }.parameter t') := by
  unfold ParseContext.parameter
  rw [← ht.text]
  cases ctx.parameters.get? t.text with
  | none => exact refusedAt_agrees ht _
  | some v => exact .ok rfl

theorem comparison?_congr (ht : t.Alike t') : Expr.comparison? t = Expr.comparison? t' := by
  rw [Expr.comparison?, Expr.comparison?, ht.kind]

section Chain

variable {word : Keyword} {op : BinaryOp} {F : Nat}
  {operand operand' read read' : Nat → List Token → Except ParseError (Parsed Expr)}
  {loop loop' : Nat → Expr → List Token → Except ParseError (Parsed Expr)}
  (hchain : IsChain word op operand read loop) (hchain' : IsChain word op operand' read' loop')
  (hoperand : ∀ {tokens tokens'}, SameLexemes tokens tokens' →
    ReadsAlike Expr.Alike (operand F tokens) (operand' F tokens'))
  (hloop : ∀ {l l' tokens tokens'}, l.Alike l' → SameLexemes tokens tokens' →
    ReadsAlike Expr.Alike (loop F l tokens) (loop' F l' tokens'))

include hchain hchain' hoperand hloop

theorem IsChain.read_alike (h : SameLexemes tokens tokens') :
    ReadsAlike Expr.Alike (read (F + 1) tokens) (read' (F + 1) tokens') := by
  rw [hchain.start, hchain'.start]
  refine (hoperand h).bind ?_
  rintro ⟨l, tokens⟩ ⟨l', tokens'⟩ ⟨hl, h⟩
  exact hloop hl h

theorem IsChain.loop_alike {l l' : Expr} (hl : l.Alike l') (h : SameLexemes tokens tokens') :
    ReadsAlike Expr.Alike (loop (F + 1) l tokens) (loop' (F + 1) l' tokens') := by
  cases h with
  | nil =>
      rw [hchain.stop F l (by simp), hchain'.stop F l' (by simp)]
      exact .ok ⟨hl, .nil⟩
  | @cons t t' rest rest' ht hrest =>
      by_cases hword : t.kind = .keyword word
      · rw [hchain.go F l rest hword, hchain'.go F l' rest' (ht.kind ▸ hword)]
        refine (hoperand hrest).bind ?_
        rintro ⟨r, tokens⟩ ⟨r', tokens'⟩ ⟨hr, h⟩
        exact hloop (hl.binary hr op _ _) h
      · have hstop : ∀ u ∈ (t :: rest).head?, u.kind ≠ .keyword word := by
          rintro u ⟨⟩
          exact hword
        have hstop' : ∀ u ∈ (t' :: rest').head?, u.kind ≠ .keyword word := by
          rintro u ⟨⟩
          exact ht.kind ▸ hword
        rw [hchain.stop F l hstop, hchain'.stop F l' hstop']
        exact .ok ⟨hl, .cons ht hrest⟩

end Chain

/-- Expressions are read in step with this much fuel. -/
structure ExpressionsAlike (ctx ctx' : ParseContext) (F : Nat) : Prop where
  or {tokens tokens' : List Token} (h : SameLexemes tokens tokens') :
    ReadsAlike Expr.Alike (Expr.readOr ctx F tokens) (Expr.readOr ctx' F tokens')
  orRest {l l' : Expr} {tokens tokens' : List Token} (hl : l.Alike l')
    (h : SameLexemes tokens tokens') :
    ReadsAlike Expr.Alike (Expr.readOrRest ctx F l tokens) (Expr.readOrRest ctx' F l' tokens')
  and {tokens tokens' : List Token} (h : SameLexemes tokens tokens') :
    ReadsAlike Expr.Alike (Expr.readAnd ctx F tokens) (Expr.readAnd ctx' F tokens')
  andRest {l l' : Expr} {tokens tokens' : List Token} (hl : l.Alike l')
    (h : SameLexemes tokens tokens') :
    ReadsAlike Expr.Alike (Expr.readAndRest ctx F l tokens) (Expr.readAndRest ctx' F l' tokens')
  not {tokens tokens' : List Token} (h : SameLexemes tokens tokens') :
    ReadsAlike Expr.Alike (Expr.readNot ctx F tokens) (Expr.readNot ctx' F tokens')
  comparison {tokens tokens' : List Token} (h : SameLexemes tokens tokens') :
    ReadsAlike Expr.Alike (Expr.readComparison ctx F tokens) (Expr.readComparison ctx' F tokens')
  operand {tokens tokens' : List Token} (h : SameLexemes tokens tokens') :
    ReadsAlike Expr.Alike (Expr.readOperand ctx F tokens) (Expr.readOperand ctx' F tokens')
  call {t t' : Token} {tokens tokens' : List Token} (ht : t.Alike t')
    (h : SameLexemes tokens tokens') :
    ReadsAlike Expr.Alike (Expr.readCall ctx F t tokens) (Expr.readCall ctx' F t' tokens')
  args {tokens tokens' : List Token} (h : SameLexemes tokens tokens') :
    ReadsAlike (fun es es' => Expr.unplacedAll es = Expr.unplacedAll es')
      (Expr.readArgs ctx F tokens) (Expr.readArgs ctx' F tokens')

theorem expressionsAlike_zero (ctx ctx' : ParseContext) : ExpressionsAlike ctx ctx' 0 where
  or h := expectedAt_agrees .operand h
  orRest _ h := expectedAt_agrees .operand h
  and h := expectedAt_agrees .operand h
  andRest _ h := expectedAt_agrees .operand h
  not h := expectedAt_agrees .operand h
  comparison h := expectedAt_agrees .operand h
  operand h := expectedAt_agrees .operand h
  call _ h := expectedAt_agrees .operand h
  args h := expectedAt_agrees .operand h

section Step

variable {ctx ctx' : ParseContext} {F : Nat} (ih : ExpressionsAlike ctx ctx' F)

include ih

theorem readNot_alike (h : SameLexemes tokens tokens') :
    ReadsAlike Expr.Alike (Expr.readNot ctx (F + 1) tokens)
      (Expr.readNot ctx' (F + 1) tokens') := by
  cases h with
  | nil => exact ih.comparison .nil
  | cons ht hrest =>
      rw [Expr.readNot, Expr.readNot]
      simp only [ht.kind]
      split
      · refine (ih.not hrest).bind ?_
        rintro ⟨e, tokens⟩ ⟨e', tokens'⟩ ⟨he, h⟩
        exact .ok ⟨he.unary .not _ _, h⟩
      · exact ih.comparison (.cons ht hrest)

theorem readComparison_alike (h : SameLexemes tokens tokens') :
    ReadsAlike Expr.Alike (Expr.readComparison ctx (F + 1) tokens)
      (Expr.readComparison ctx' (F + 1) tokens') := by
  rw [Expr.readComparison, Expr.readComparison]
  refine (ih.operand h).bind ?_
  rintro ⟨l, tokens⟩ ⟨l', tokens'⟩ ⟨hl, h⟩
  cases h with
  | nil => exact .ok ⟨hl, .nil⟩
  | cons ht hrest =>
      simp only [comparison?_congr ht]
      split
      · exact .ok ⟨hl, .cons ht hrest⟩
      · refine (ih.operand hrest).bind ?_
        rintro ⟨r, tokens⟩ ⟨r', tokens'⟩ ⟨hr, h⟩
        exact .ok ⟨hl.binary hr _ _ _, h⟩

theorem readArgs_alike (h : SameLexemes tokens tokens') :
    ReadsAlike (fun es es' => Expr.unplacedAll es = Expr.unplacedAll es')
      (Expr.readArgs ctx (F + 1) tokens) (Expr.readArgs ctx' (F + 1) tokens') := by
  rw [Expr.readArgs, Expr.readArgs]
  refine (ih.or h).bind ?_
  rintro ⟨e, tokens⟩ ⟨e', tokens'⟩ ⟨he, h⟩
  rcases skipKind_cases (.sign .comma) h with ⟨hskip, hskip'⟩ | ⟨rest, rest', hskip, hskip', h⟩
  · simp only [hskip, hskip']
    exact .ok ⟨Expr.unplacedAll_cons_congr he rfl, h⟩
  · simp only [hskip, hskip']
    refine (ih.args h).bind ?_
    rintro ⟨es, tokens⟩ ⟨es', tokens'⟩ ⟨hes, h⟩
    exact .ok ⟨Expr.unplacedAll_cons_congr he hes, h⟩

end Step

/-- The end of a call, behind its arguments. -/
theorem closeCall_alike (name : String) (arity : Int) (ht : t.Alike t') {es es' : List Expr}
    (hes : Expr.unplacedAll es = Expr.unplacedAll es') (h : SameLexemes tokens tokens') :
    ReadsAlike Expr.Alike
      (readKind stop (.sign .rightParen) (.closingCall name) tokens >>= fun c =>
        if arity = es.length then pure (.call name es t.position, c.2)
        else refusedAt t (.wrongArity name arity es.length))
      (readKind stop' (.sign .rightParen) (.closingCall name) tokens' >>= fun c =>
        if arity = es'.length then pure (.call name es' t'.position, c.2)
        else refusedAt t' (.wrongArity name arity es'.length)) := by
  refine (readKind_alike (.sign .rightParen) (.closingCall name) h).bind ?_
  rintro ⟨_, tokens⟩ ⟨_, tokens'⟩ ⟨-, h⟩
  rw [Expr.length_eq_of_unplacedAll hes]
  split
  · refine .ok ⟨?_, h⟩
    rw [Expr.Alike, Expr.unplaced, Expr.unplaced, hes]
  · exact refusedAt_agrees ht _

section Operand

variable {ctx : ParseContext} {F : Nat} (ih : ExpressionsAlike ctx { ctx with stop := stop' } F)

include ih

theorem readOperand_alike (h : SameLexemes tokens tokens') :
    ReadsAlike Expr.Alike (Expr.readOperand ctx (F + 1) tokens)
      (Expr.readOperand { ctx with stop := stop' } (F + 1) tokens') := by
  cases h with
  | nil => exact expectedAt_agrees .operand .nil
  | cons ht hrest =>
      rw [Expr.readOperand, Expr.readOperand]
      simp only [ht.kind]
      split
      · exact .ok ⟨rfl, hrest⟩
      split
      · refine (parameter_agrees ctx ht).bind ?_
        rintro v _ rfl
        exact .ok ⟨rfl, hrest⟩
      · refine (ih.or hrest).bind ?_
        rintro ⟨e, tokens⟩ ⟨e', tokens'⟩ ⟨he, h⟩
        refine (readKind_alike (.sign .rightParen) .closingParen h).bind ?_
        rintro ⟨_, tokens⟩ ⟨_, tokens'⟩ ⟨-, h⟩
        exact .ok ⟨he, h⟩
      · rcases skipKind_cases (.sign .leftParen) hrest with
          ⟨hskip, hskip'⟩ | ⟨inner, inner', hskip, hskip', h⟩
        · simp only [hskip, hskip']
          refine (readPath_alike .operand (.cons ht hrest)).bind ?_
          rintro ⟨p, tokens⟩ ⟨p', tokens'⟩ ⟨hp, h⟩
          refine .ok ⟨?_, h⟩
          rw [Expr.Alike, Expr.unplaced, Expr.unplaced, hp.text, hp.below]
        · simp only [hskip, hskip']
          exact ih.call ht h
      · exact expectedAt_agrees .operand (.cons ht hrest)

theorem readCall_alike (ht : t.Alike t') (h : SameLexemes tokens tokens') :
    ReadsAlike Expr.Alike (Expr.readCall ctx (F + 1) t tokens)
      (Expr.readCall { ctx with stop := stop' } (F + 1) t' tokens') := by
  rw [Expr.readCall, Expr.readCall]
  simp only [← ht.text]
  split
  · exact refusedAt_agrees ht _
  rename_i f _
  rcases skipKind_cases (.sign .rightParen) h with
    ⟨hskip, hskip'⟩ | ⟨rest, rest', hskip, hskip', -⟩
  · simp only [hskip, hskip']
    refine (ih.args h).bind ?_
    rintro ⟨es, tokens⟩ ⟨es', tokens'⟩ ⟨hes, h⟩
    exact closeCall_alike _ f.arity ht hes h
  · simp only [hskip, hskip']
    exact closeCall_alike _ f.arity ht rfl h

end Operand

theorem expressionsAlike (ctx : ParseContext) (stop' : Position) (F : Nat) :
    ExpressionsAlike ctx { ctx with stop := stop' } F := by
  induction F with
  | zero => exact expressionsAlike_zero ctx _
  | succ F ih =>
      exact {
        or := (isChain_or ctx).read_alike (isChain_or _) ih.and ih.orRest
        orRest := (isChain_or ctx).loop_alike (isChain_or _) ih.and ih.orRest
        and := (isChain_and ctx).read_alike (isChain_and _) ih.not ih.andRest
        andRest := (isChain_and ctx).loop_alike (isChain_and _) ih.not ih.andRest
        not := readNot_alike ih
        comparison := readComparison_alike ih
        operand := readOperand_alike ih
        call := readCall_alike ih
        args := readArgs_alike ih }

/-! ## Clauses -/

theorem readRowValue_agrees (ctx : ParseContext) (clause : RowClause) (ht : t.Alike t') :
    Agrees Eq (readRowValue ctx clause t)
      (readRowValue { ctx with stop := stop' } clause t') := by
  unfold readRowValue
  rw [ht.kind]
  split
  · exact .ok rfl
  · exact parameter_agrees ctx ht
  · exact expectedAt_agrees _ (.cons ht .nil)

theorem countRows_agrees (clause : RowClause) (v : Json) (ht : t.Alike t') :
    Agrees Eq (countRows clause t v) (countRows clause t' v) := by
  unfold countRows
  split
  · exact .ok rfl
  · exact refusedAt_agrees ht _

theorem readRows_alike (ctx : ParseContext) (clause : RowClause)
    (h : SameLexemes tokens tokens') :
    ReadsAlike Eq (readRows ctx clause tokens)
      (readRows { ctx with stop := stop' } clause tokens') := by
  cases h with
  | nil => exact expectedAt_agrees _ .nil
  | cons ht hrest =>
      rw [readRows_cons, readRows_cons]
      refine (readRowValue_agrees ctx clause ht).bind ?_
      rintro v _ rfl
      refine (countRows_agrees clause v ht).bind ?_
      rintro n _ rfl
      exact .ok ⟨rfl, hrest⟩

theorem readAs_alike (what : Expectation) (h : SameLexemes tokens tokens') :
    ReadsAlike Eq (readAs stop what tokens) (readAs stop' what tokens') := by
  unfold readAs
  rcases skipKind_cases (.keyword .as_) h with
    ⟨hskip, hskip'⟩ | ⟨rest, rest', hskip, hskip', hrest⟩
  · rw [hskip, hskip']
    exact .ok ⟨rfl, h⟩
  · rw [hskip, hskip']
    refine (readKind_alike .identifier what hrest).bind ?_
    rintro ⟨name, tokens⟩ ⟨name', tokens'⟩ ⟨hname, h⟩
    exact .ok ⟨congrArg some hname.text, h⟩

theorem ReadsList.alike {α : Type} {R : α → α → Prop}
    {step step' : List Token → Except ParseError (Parsed α)}
    {loop loop' : Nat → List Token → Except ParseError (Parsed (List α))}
    (hlist : ReadsList step loop) (hlist' : ReadsList step' loop')
    (hstep : ∀ {tokens tokens'}, SameLexemes tokens tokens' →
      ReadsAlike R (step tokens) (step' tokens'))
    (hzero : ∀ {tokens tokens'}, SameLexemes tokens tokens' →
      ReadsAlike (List.Forall₂ R) (loop 0 tokens) (loop' 0 tokens'))
    (F : Nat) (h : SameLexemes tokens tokens') :
    ReadsAlike (List.Forall₂ R) (loop F tokens) (loop' F tokens') := by
  induction F generalizing tokens tokens' with
  | zero => exact hzero h
  | succ F ih =>
      rw [hlist, hlist']
      refine (hstep h).bind ?_
      rintro ⟨a, tokens⟩ ⟨a', tokens'⟩ ⟨ha, h⟩
      rcases skipKind_cases (.sign .comma) h with
        ⟨hskip, hskip'⟩ | ⟨rest, rest', hskip, hskip', h⟩
      · simp only [hskip, hskip']
        exact .ok ⟨.cons ha .nil, ‹_›⟩
      · simp only [hskip, hskip']
        refine (ih h).bind ?_
        rintro ⟨as, tokens⟩ ⟨as', tokens'⟩ ⟨has, h⟩
        exact .ok ⟨.cons ha has, h⟩

/-- The same selected path, perhaps in another place. -/
structure RawItem.Alike (item item' : RawItem) : Prop where
  path : item.path.Alike item'.path
  alias? : item.alias? = item'.alias?

theorem readItem_alike (h : SameLexemes tokens tokens') :
    ReadsAlike RawItem.Alike (readItem stop tokens) (readItem stop' tokens') := by
  refine (readPath_alike .projection h).bind ?_
  rintro ⟨p, tokens⟩ ⟨p', tokens'⟩ ⟨hp, h⟩
  refine (readAs_alike .outputName h).bind ?_
  rintro ⟨name?, tokens⟩ ⟨name?', tokens'⟩ ⟨hname, h⟩
  exact .ok ⟨⟨hp, hname⟩, h⟩

theorem readProjection_alike (h : SameLexemes tokens tokens') :
    ReadsAlike (Option.Rel (List.Forall₂ RawItem.Alike)) (readProjection stop tokens)
      (readProjection stop' tokens') := by
  unfold readProjection
  rcases skipKind_cases (.sign .star) h with
    ⟨hskip, hskip'⟩ | ⟨rest, rest', hskip, hskip', hrest⟩
  · rw [hskip, hskip', h.length_eq]
    refine ((readsList_readItems stop).alike (readsList_readItems stop') readItem_alike
      (expectedAt_agrees .projection) _ h).bind ?_
    rintro ⟨items, tokens⟩ ⟨items', tokens'⟩ ⟨hitems, h⟩
    exact .ok ⟨.some hitems, h⟩
  · rw [hskip, hskip']
    exact .ok ⟨.none, hrest⟩

theorem RawItem.Alike.isWhole {item item' : RawItem} (h : item.Alike item')
    (aliases : List String) : item.isWhole aliases = item'.isWhole aliases := by
  rw [RawItem.isWhole, RawItem.isWhole, h.path.below, h.alias?]

theorem RawItem.Alike.strip {item item' : RawItem} (h : item.Alike item')
    (aliases : List String) : item.strip aliases = item'.strip aliases := by
  rw [RawItem.strip, RawItem.strip, h.path.below, h.path.text, h.alias?]

theorem map_strip_congr (aliases : List String) {items items' : List RawItem}
    (h : List.Forall₂ RawItem.Alike items items') :
    items.map (·.strip aliases) = items'.map (·.strip aliases) := by
  induction h with
  | nil => rfl
  | cons hitem _ ih => rw [List.map_cons, List.map_cons, hitem.strip, ih]

theorem find?_isWhole_cases (aliases : List String) {items items' : List RawItem}
    (h : List.Forall₂ RawItem.Alike items items') :
    (items.find? (·.isWhole aliases) = none ∧ items'.find? (·.isWhole aliases) = none) ∨
      ∃ item item', items.find? (·.isWhole aliases) = some item ∧
        items'.find? (·.isWhole aliases) = some item' ∧ item.Alike item' := by
  induction h with
  | nil => exact .inl ⟨rfl, rfl⟩
  | @cons item item' _ _ hitem _ ih =>
      rw [List.find?_cons, List.find?_cons, hitem.isWhole aliases]
      cases item'.isWhole aliases with
      | true => exact .inr ⟨item, item', rfl, rfl, hitem⟩
      | false => exact ih

theorem buildProjection_agrees (aliases : List String) {raw raw' : Option (List RawItem)}
    (h : Option.Rel (List.Forall₂ RawItem.Alike) raw raw') :
    Agrees Eq (buildProjection aliases raw) (buildProjection aliases raw') := by
  cases h with
  | none => exact .ok rfl
  | some hitems =>
      have hmap := map_strip_congr aliases hitems
      have hfind := find?_isWhole_cases aliases hitems
      cases hitems with
      | nil => exact .ok rfl
      | cons hitem hrest =>
          cases hrest with
          | nil =>
              rw [buildProjection, buildProjection, hitem.isWhole, hitem.strip]
              exact .ok rfl
          | cons hnext hrest =>
              unfold buildProjection
              rcases hfind with ⟨hnone, hnone'⟩ | ⟨item, item', hsome, hsome', hwhole⟩
              · simp only [hnone, hnone', hmap]
                exact .ok rfl
              · simp only [hsome, hsome']
                exact refusedAt_agrees hwhole.path.start _

theorem readAlias_alike (h : SameLexemes tokens tokens') :
    ReadsAlike Eq (readAlias stop tokens) (readAlias stop' tokens') := by
  cases h with
  | nil => exact .ok ⟨rfl, .nil⟩
  | cons ht hrest =>
      unfold readAlias
      rcases skipKind_cases (.keyword .as_) (.cons ht hrest) with
        ⟨hskip, hskip'⟩ | ⟨rest, rest', hskip, hskip', -⟩
      · simp only [hskip, hskip', ht.kind]
        split
        · exact .ok ⟨congrArg some ht.text, hrest⟩
        · exact .ok ⟨rfl, .cons ht hrest⟩
      · simp only [hskip, hskip']
        exact readAs_alike .sourceAlias (.cons ht hrest)

theorem readDirection_alike (h : SameLexemes tokens tokens') :
    (readDirection tokens).1 = (readDirection tokens').1 ∧
      SameLexemes (readDirection tokens).2 (readDirection tokens').2 := by
  unfold readDirection
  rcases skipKind_cases (.keyword .desc) h with
    ⟨hdesc, hdesc'⟩ | ⟨rest, rest', hdesc, hdesc', hrest⟩
  · rw [hdesc, hdesc']
    rcases skipKind_cases (.keyword .asc) h with
      ⟨hasc, hasc'⟩ | ⟨rest, rest', hasc, hasc', hrest⟩
    · rw [hasc, hasc']
      exact ⟨rfl, h⟩
    · rw [hasc, hasc']
      exact ⟨rfl, hrest⟩
  · rw [hdesc, hdesc']
    exact ⟨rfl, hrest⟩

theorem readKey_alike (aliases : List String) (h : SameLexemes tokens tokens') :
    ReadsAlike Eq (readKey stop aliases tokens) (readKey stop' aliases tokens') := by
  refine (readPath_alike .orderKey h).bind ?_
  rintro ⟨p, tokens⟩ ⟨p', tokens'⟩ ⟨hp, h⟩
  obtain ⟨hdirection, h⟩ := readDirection_alike h
  refine .ok ⟨?_, h⟩
  exact SortKey.mk.injEq .. ▸ ⟨hp.text, hp.below aliases, hdirection⟩

theorem readKeys_alike (aliases : List String) (F : Nat) (h : SameLexemes tokens tokens') :
    ReadsAlike Eq (readKeys stop aliases F tokens) (readKeys stop' aliases F tokens') := by
  have hkeys := (readsList_readKeys stop aliases).alike (readsList_readKeys stop' aliases)
    (readKey_alike aliases) (expectedAt_agrees .orderKey) F h
  rwa [List.forall₂_eq_eq_eq] at hkeys

theorem readWhere_alike (ctx : ParseContext) (h : SameLexemes tokens tokens') :
    ReadsAlike (fun e? e?' => e?.map Expr.unplaced = e?'.map Expr.unplaced)
      (readWhere ctx tokens) (readWhere { ctx with stop := stop' } tokens') := by
  unfold readWhere
  rcases skipKind_cases (.keyword .where_) h with
    ⟨hskip, hskip'⟩ | ⟨rest, rest', hskip, hskip', hrest⟩
  · rw [hskip, hskip']
    exact .ok ⟨rfl, h⟩
  · rw [hskip, hskip']
    dsimp only
    rw [Expr.read, Expr.read, Expr.fuel, Expr.fuel, hrest.length_eq]
    refine ((expressionsAlike ctx stop' _).or hrest).bind ?_
    rintro ⟨e, tokens⟩ ⟨e', tokens'⟩ ⟨he, h⟩
    exact .ok ⟨congrArg some he, h⟩

theorem readOrderBy_alike (ctx : ParseContext) (h : SameLexemes tokens tokens') :
    ReadsAlike Eq (readOrderBy ctx tokens) (readOrderBy { ctx with stop := stop' } tokens') := by
  unfold readOrderBy
  rcases skipKind_cases (.keyword .order) h with
    ⟨hskip, hskip'⟩ | ⟨rest, rest', hskip, hskip', hrest⟩
  · rw [hskip, hskip']
    exact .ok ⟨rfl, h⟩
  · rw [hskip, hskip']
    refine (readKind_alike (.keyword .by_) .orderBy hrest).bind ?_
    rintro ⟨_, tokens⟩ ⟨_, tokens'⟩ ⟨-, h⟩
    dsimp only
    rw [h.length_eq]
    exact readKeys_alike ctx.aliases _ h

theorem readTop_alike (ctx : ParseContext) (h : SameLexemes tokens tokens') :
    ReadsAlike Eq (readTop ctx tokens) (readTop { ctx with stop := stop' } tokens') := by
  unfold readTop
  rcases skipKind_cases (.keyword .top) h with
    ⟨hskip, hskip'⟩ | ⟨rest, rest', hskip, hskip', hrest⟩
  · rw [hskip, hskip']
    exact .ok ⟨rfl, h⟩
  · rw [hskip, hskip']
    refine (readRows_alike ctx .top hrest).bind ?_
    rintro ⟨n, tokens⟩ ⟨n', tokens'⟩ ⟨hn, h⟩
    exact .ok ⟨congrArg some hn, h⟩

theorem readLimit_alike (ctx : ParseContext) (top : Option Nat)
    (h : SameLexemes tokens tokens') :
    ReadsAlike Eq (readLimit ctx top tokens)
      (readLimit { ctx with stop := stop' } top tokens') := by
  cases h with
  | nil => exact .ok ⟨rfl, .nil⟩
  | cons ht hrest =>
      rw [readLimit, readLimit, ht.kind]
      split
      · split
        · exact refusedAt_agrees ht _
        · refine (readRows_alike ctx .limit hrest).bind ?_
          rintro ⟨n, tokens⟩ ⟨n', tokens'⟩ ⟨hn, h⟩
          exact .ok ⟨congrArg some hn, h⟩
      · exact .ok ⟨rfl, .cons ht hrest⟩

/-! ## Queries -/

/-- **Places play no part**: token lists that differ in places alone
make queries that do, or are refused for the same cause at the same
token. -/
theorem readQuery_agrees (ctx : ParseContext) (text text' : String)
    (h : SameLexemes tokens tokens') :
    Agrees (fun q q' => q.unplaced = q'.unplaced) (readQuery ctx text tokens)
      (readQuery { ctx with stop := stop' } text' tokens') := by
  refine (readKind_alike (.keyword .select) .select h).bind ?_
  rintro ⟨_, tokens⟩ ⟨_, tokens'⟩ ⟨-, h⟩
  refine (readTop_alike ctx h).bind ?_
  rintro ⟨top, tokens⟩ ⟨_, tokens'⟩ ⟨rfl, h⟩
  refine (readProjection_alike h).bind ?_
  rintro ⟨raw, tokens⟩ ⟨raw', tokens'⟩ ⟨hraw, h⟩
  refine (readKind_alike (.keyword .from_) .source h).bind ?_
  rintro ⟨_, tokens⟩ ⟨_, tokens'⟩ ⟨-, h⟩
  refine (readKind_alike .identifier .container h).bind ?_
  rintro ⟨container, tokens⟩ ⟨container', tokens'⟩ ⟨hcontainer, h⟩
  refine (readAlias_alike h).bind ?_
  rintro ⟨alias?, tokens⟩ ⟨_, tokens'⟩ ⟨rfl, h⟩
  dsimp only
  rw [← hcontainer.text]
  refine (buildProjection_agrees _ hraw).bind ?_
  rintro projection _ rfl
  refine (readWhere_alike _ h).bind ?_
  rintro ⟨where?, tokens⟩ ⟨where?', tokens'⟩ ⟨hwhere, h⟩
  refine (readOrderBy_alike _ h).bind ?_
  rintro ⟨orderBy, tokens⟩ ⟨_, tokens'⟩ ⟨rfl, h⟩
  refine (readLimit_alike _ top h).bind ?_
  rintro ⟨limit, tokens⟩ ⟨_, tokens'⟩ ⟨rfl, h⟩
  cases h with
  | nil =>
      refine .ok ?_
      rw [Query.unplaced, Query.unplaced]
      simp only [hwhere]
  | cons ht hrest => exact expectedAt_agrees .endOfQuery (.cons ht .nil)

end Parser

end DocStore
